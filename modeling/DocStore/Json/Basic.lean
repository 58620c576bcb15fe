import DocStore.Number.Basic

/-! JSON values. Objects are lists of members; the values this library reads and builds keep every
object sorted by key and free of repeated keys (`Json.Ordered`), so equal values have equal texts. -/
namespace DocStore

inductive Json where
  | null
  | boolean (value : Bool)
  | number (value : Number)
  | string (text : String)
  | array (items : List Json)
  | object (members : List (String × Json))
deriving Repr, Inhabited

namespace Json

/-- What passes from the items of an array and from the members of an object to the whole holds of every
value. -/
@[elab_as_elim]
theorem nested {motive : Json → Prop} (null : motive .null) (boolean : ∀ value, motive (.boolean value))
    (number : ∀ value, motive (.number value)) (string : ∀ text, motive (.string text))
    (array : ∀ items, (∀ item ∈ items, motive item) → motive (.array items))
    (object : ∀ members, (∀ member ∈ members, motive member.2) → motive (.object members))
    (value : Json) : motive value :=
  @Json.rec motive (fun items => ∀ item ∈ items, motive item)
    (fun members => ∀ member ∈ members, motive member.2) (fun member => motive member.2)
    null boolean number string array object
    (fun _ member => absurd member List.not_mem_nil)
    (fun _ _ first rest => List.forall_mem_cons.mpr ⟨first, rest⟩)
    (fun _ member => absurd member List.not_mem_nil)
    (fun _ _ first rest => List.forall_mem_cons.mpr ⟨first, rest⟩)
    (fun _ _ below => below) value

mutual

def same : Json → Json → Bool
  | .null, .null => true
  | .boolean a, .boolean b => a == b
  | .number a, .number b => a == b
  | .string a, .string b => a == b
  | .array a, .array b => sameItems a b
  | .object a, .object b => sameMembers a b
  | _, _ => false
termination_by structural value => value

def sameItems : List Json → List Json → Bool
  | [], [] => true
  | a :: as, b :: bs => a.same b && sameItems as bs
  | _, _ => false
termination_by structural items => items

def sameMembers : List (String × Json) → List (String × Json) → Bool
  | [], [] => true
  | a :: as, b :: bs => sameMember a b && sameMembers as bs
  | _, _ => false
termination_by structural members => members

def sameMember : String × Json → String × Json → Bool
  | (key, a), (key', b) => key == key' && a.same b
termination_by structural member => member

end

mutual

theorem same_iff : ∀ a b : Json, a.same b = true ↔ a = b
  | .null, b | .boolean _, b | .number _, b | .string _, b => by cases b <;> simp [same]
  | .array items, b => by cases b <;> simp [same, sameItems_iff items]
  | .object members, b => by cases b <;> simp [same, sameMembers_iff members]

theorem sameItems_iff : ∀ a b : List Json, sameItems a b = true ↔ a = b
  | [], b => by cases b <;> simp [sameItems]
  | a :: as, b => by cases b <;> simp [sameItems, same_iff a, sameItems_iff as]

theorem sameMembers_iff : ∀ a b : List (String × Json), sameMembers a b = true ↔ a = b
  | [], b => by cases b <;> simp [sameMembers]
  | a :: as, b => by cases b <;> simp [sameMembers, sameMember_iff a, sameMembers_iff as]

theorem sameMember_iff : ∀ a b : String × Json, sameMember a b = true ↔ a = b
  | (key, a), (key', b) => by simp [sameMember, same_iff a]

end

instance : DecidableEq Json := fun a b => decidable_of_iff _ (same_iff a b)

mutual

/-- How many arrays and objects are nested in each other at the deepest place. -/
def depth : Json → Nat
  | .array items => depthItems items + 1
  | .object members => depthMembers members + 1
  | _ => 0
termination_by structural value => value

def depthItems : List Json → Nat
  | [] => 0
  | item :: rest => max item.depth (depthItems rest)
termination_by structural items => items

def depthMembers : List (String × Json) → Nat
  | [] => 0
  | member :: rest => max (depthMember member) (depthMembers rest)
termination_by structural members => members

def depthMember : String × Json → Nat
  | (_, value) => value.depth
termination_by structural member => member

end

def lookup? (key : String) (members : List (String × Json)) : Option Json :=
  (members.find? fun member => member.1 == key).map Prod.snd

/-- A member of an object; nothing else has members. -/
def get? (value : Json) (key : String) : Option Json :=
  match value with
  | .object members => lookup? key members
  | _ => none

/-- Puts a member into its place among sorted members, replacing the one of the same key. -/
def insertMember (key : String) (value : Json) : List (String × Json) → List (String × Json)
  | [] => [(key, value)]
  | (key', value') :: rest =>
    if key < key' then (key, value) :: (key', value') :: rest
    else if key = key' then (key, value) :: rest
    else (key', value') :: insertMember key value rest

def eraseMember (key : String) (members : List (String × Json)) : List (String × Json) :=
  members.filter fun member => member.1 != key

/-- Sorts members by key; of two with the same key the later one stays. -/
def sortMembers (members : List (String × Json)) : List (String × Json) :=
  members.foldl (fun sorted member => insertMember member.1 member.2 sorted) []

def ofMembers (members : List (String × Json)) : Json := .object (sortMembers members)

mutual

/-- Every object inside has its members sorted, each key once. -/
def Ordered : Json → Prop
  | .array items => OrderedItems items
  | .object members => (members.map Prod.fst).Pairwise (· < ·) ∧ OrderedMembers members
  | _ => True
termination_by structural value => value

def OrderedItems : List Json → Prop
  | [] => True
  | item :: rest => item.Ordered ∧ OrderedItems rest
termination_by structural items => items

def OrderedMembers : List (String × Json) → Prop
  | [] => True
  | member :: rest => OrderedMember member ∧ OrderedMembers rest
termination_by structural members => members

def OrderedMember : String × Json → Prop
  | (_, value) => value.Ordered
termination_by structural member => member

end

mutual

def sorted : Json → Json
  | .array items => .array (sortedItems items)
  | .object members => ofMembers (sortedMembers members)
  | value => value
termination_by structural value => value

def sortedItems : List Json → List Json
  | [] => []
  | item :: rest => item.sorted :: sortedItems rest
termination_by structural items => items

def sortedMembers : List (String × Json) → List (String × Json)
  | [] => []
  | member :: rest => sortedMember member :: sortedMembers rest
termination_by structural members => members

def sortedMember : String × Json → String × Json
  | (key, value) => (key, value.sorted)
termination_by structural member => member

end

end Json

end DocStore
