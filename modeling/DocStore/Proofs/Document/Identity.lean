import DocStore.Proofs.Document
import DocStore.Proofs.Query.Answerable

/-! The identifier of a document. Three places turn a JSON value into it: reading a document, compiling
an equality of the member `id`, and projecting a document to the index of that member. They agree on each
value, so a document is found under the id it was read with, by number or by text, by identifier or by
index. -/
namespace DocStore

namespace Json

variable {key : String} {value : Json} {members : List (String × Json)}

/-- Strings, numbers and truth values. -/
inductive Scalar : Json → Prop
  | string (contents : String) : Scalar (.string contents)
  | number (value : Number) : Scalar (.number value)
  | boolean (value : Bool) : Scalar (.boolean value)

inductive Structured : Json → Prop
  | array (items : List Json) : Structured (.array items)
  | object (members : List (String × Json)) : Structured (.object members)

/-- A scalar names a record by one text, which is its index value. -/
theorem Scalar.namesText (scalar : value.Scalar) :
    ∃ id, value.NamesText id ∧ IndexValue.ofJson value = .text id := by
  cases scalar with
  | string contents => exact ⟨contents, .string contents, rfl⟩
  | number value => exact ⟨_, .number rfl, rfl⟩
  | boolean value => exact ⟨_, .boolean rfl, rfl⟩

theorem eraseMember_of_above (above : ∀ member ∈ members, key < member.1) :
    eraseMember key members = members :=
  eraseMember_of_absent fun member inside => (above member inside).ne'

theorem insertMember_eraseMember (sorted : Sorted members) :
    insertMember key value (eraseMember key members) = insertMember key value members := by
  induction members with
  | nil => rfl
  | cons first rest ih =>
    obtain ⟨other, held⟩ := first
    obtain ⟨above, inOrder⟩ := sorted_cons.mp sorted
    rcases lt_trichotomy key other with before | rfl | after
    · rw [eraseMember_of_above]
      intro member inside
      rcases List.mem_cons.mp inside with rfl | later
      · exact before
      · exact before.trans (above member later)
    · rw [eraseMember_cons_self, eraseMember_of_above above, insertMember_first above, insertMember,
        if_neg (lt_irrefl key), if_pos rfl]
    · rw [eraseMember_cons_of_ne after.ne, insertMember, insertMember, if_neg after.not_gt,
        if_neg after.not_gt, if_neg after.ne', if_neg after.ne', ih inOrder]

theorem lookup?_insertMember_of_ne {other : String} (differs : other ≠ key) :
    lookup? other (insertMember key value members) = lookup? other members := by
  induction members with
  | nil => simp [insertMember, lookup?, differs.symm]
  | cons first rest ih =>
    obtain ⟨name, held⟩ := first
    rw [insertMember]
    split
    case isTrue => simp [lookup?, differs.symm]
    case isFalse =>
    split
    case isTrue same =>
      subst same
      simp [lookup?, differs.symm]
    case isFalse =>
      by_cases here : name = other
      · simp [lookup?, here]
      · have apart : (name == other) = false := by simpa using here
        simpa [lookup?, apart] using ih

end Json

namespace Document

variable {document : Document} {members : List (String × Json)} {value : Json} {id fresh : String}

theorem ofJson_of_namesText (held : Json.lookup? "id" members = some value) (names : value.NamesText id)
    (fresh : String) :
    ofJson fresh (.object members) = .ok ⟨id, Json.eraseMember "id" members⟩ := by
  rw [ofJson, held]
  cases names with
  | string contents => rfl
  | number shown =>
    dsimp only
    rw [shown]
    rfl
  | boolean shown =>
    dsimp only
    rw [shown]
    rfl

theorem ofJson_of_structured (held : Json.lookup? "id" members = some value)
    (structured : value.Structured) (fresh : String) :
    ofJson fresh (.object members) = .error (.structuredId value) := by
  rw [ofJson, held]
  cases structured <;> rfl

theorem toJson_of_ofJson (sorted : Json.Sorted members)
    (accepted : ofJson fresh (.object members) = .ok document) :
    document.toJson = .object (Json.insertMember "id" (.string document.id) members) := by
  rw [toJson, body_of_ofJson accepted, Json.insertMember_eraseMember sorted]

theorem ofJson_toJson (anonymous : ∀ member ∈ document.body, member.1 ≠ "id") (fresh : String) :
    ofJson fresh document.toJson = .ok document := by
  rw [toJson, ofJson_of_namesText (Json.lookup?_insertMember ..) (.string document.id),
    Json.eraseMember_insertMember anonymous]

/-- The field of documents that holds their identifier. -/
def idField : IndexedField Document := .member (.parse "id")

theorem path_id : Path.parse "id" = ⟨["id"]⟩ := by decide +kernel

theorem project_idField (document : Document) : idField.project document = .ok (.text document.id) := by
  have found : IndexValue.project document.toJson ⟨["id"]⟩ = .text document.id := document.project_id
  rw [idField, path_id]
  exact congrArg Except.ok found

end Document

namespace Expr

variable {ι : Type} [Identifier ι] {idMember : String} {path : Path} {value : Json}

/-- An equality of a field with a constant is compiled to its lookup, and nothing is read for it. -/
theorem compile_atom (nonempty : path.isEmpty = false) (scope : Scope) (reads : List Nat) :
    ((atom .equal path value).compile idMember scope).run reads =
      ((lookup idMember path value : Except Unsupported (Operation ι)), reads) := by
  have named : (Expr.member path).memberPath = .ok path := if_neg (by simp [nonempty])
  rw [atom, compile, named]
  rfl

end Expr

namespace Collection

variable {σ τ : Type} {collection : Collection σ τ Document String}
  {Shows : σ → Catalog Document String → Prop} {changes : List (Change Document String)}
  {catalog : Catalog Document String} {world : σ}

/-- The index of the identifiers lists a document just under its identifier. -/
theorem listed_idField (reflects : catalog.Reflects collection.fields changes)
    (declared : Document.idField ∈ collection.fields) (id : String) :
    catalog.listed Document.idField.name (.text id) = (catalog.records id).toList := by
  have once : (catalog.listed Document.idField.name (.text id)).Nodup :=
    (reflects.keyed.answer_nodup (.byField Document.idField.name (.text id))).of_map _
  have single : (catalog.records id).toList.Nodup := (reflects.keyed.answer_nodup (.byId id)).of_map _
  have same : (catalog.listed Document.idField.name (.text id)).Perm (catalog.records id).toList := by
    rw [List.perm_ext_iff_of_nodup once single]
    intro document
    rw [reflects.mem_listed declared, Document.project_idField, Option.mem_toList]
    constructor
    · rintro ⟨stored, projected⟩
      cases projected
      exact stored
    · intro stored
      obtain rfl : document.id = id := (reflects.put_mem stored).2
      exact ⟨stored, rfl⟩
  cases found : catalog.records id with
  | none =>
    rw [found] at same
    exact List.perm_nil.mp same
  | some document =>
    rw [found] at same
    exact List.perm_singleton.mp same

/-- In a collection of documents with an index of their identifiers, that index finds what a lookup of the
identifier finds. -/
theorem execute_idField (reads : collection.ReadsCatalog Shows)
    (reflects : catalog.Reflects collection.fields changes) (shows : Shows world catalog)
    (declared : Document.idField ∈ collection.fields) (id : String) :
    ∃ found byId byField, collection.execute (.byId id) world = (.ok found, byId) ∧
      collection.execute (.byField Document.idField.name (.text id)) world = (.ok found, byField) ∧
      ∀ document, document ∈ found ↔ Change.current? id changes = some document := by
  have named : Document.idField.name ∈ collection.indexNames := List.mem_map_of_mem declared
  have answers (operation : Operation String)
      (indexes : ∀ name ∈ operation.indexNames, name = Document.idField.name) :
      ∃ next, collection.execute operation world = (.ok (catalog.answer operation), next) := by
    obtain ⟨next, success, _⟩ := reads.execute shows fun name inside => indexes name inside ▸ named
    exact ⟨next, success⟩
  obtain ⟨byId, identified⟩ := answers (.byId id) (by simp [Operation.indexNames])
  obtain ⟨byField, indexed⟩ :=
    answers (.byField Document.idField.name (.text id)) (by simp [Operation.indexNames])
  have same : catalog.answer (.byField Document.idField.name (.text id)) = catalog.answer (.byId id) :=
    listed_idField reflects declared id
  rw [same] at indexed
  refine ⟨_, byId, byField, identified, indexed, ?_⟩
  intro document
  rw [Catalog.answer, Option.mem_toList, reflects.records]

end Collection

/-- The value stands for one identifier of documents, whichever way it is looked up: it is the key of the
document in the index of the identifiers, and an equality with the value, or with the text, is compiled to
the lookup of the identifier. -/
structure Json.Identifies (value : Json) (id : String) : Prop where
  indexed : IndexValue.ofJson value = .text id
  compiled (scope : Scope) (reads : List Nat) :
    ((Expr.atom .equal ⟨["id"]⟩ value).compile (Record.idMember Document) scope).run reads =
        (.ok (.byId id), reads) ∧
      ((Expr.atom .equal ⟨["id"]⟩ (.string id)).compile (Record.idMember Document) scope).run reads =
        (.ok (.byId id), reads)
  projected (document : Document) :
    document.id = id ↔ Document.idField.project document = .ok (IndexValue.ofJson value)
  found {σ τ : Type} {collection : Collection σ τ Document String}
    {Shows : σ → Catalog Document String → Prop} {changes : List (Change Document String)}
    {catalog : Catalog Document String} {world : σ} (reads : collection.ReadsCatalog Shows)
    (reflects : catalog.Reflects collection.fields changes) (shows : Shows world catalog)
    (declared : Document.idField ∈ collection.fields) :
    ∃ found byId byField, collection.execute (.byId id) world = (.ok found, byId) ∧
      collection.execute (.byField Document.idField.name (IndexValue.ofJson value)) world =
        (.ok found, byField) ∧
      ∀ document, document ∈ found ↔ Change.current? id changes = some document

theorem Json.NamesText.identifies {value : Json} {id : String} (names : value.NamesText id)
    (indexed : IndexValue.ofJson value = .text id) : value.Identifies id := by
  have lookup {value : Json} (names : value.NamesText id) :
      (Expr.lookup "id" ⟨["id"]⟩ value : Except Unsupported (Operation String)) = .ok (.byId id) :=
    Expr.lookup_eq_ok_iff.mpr (.inl ⟨id, rfl, identifierOf_text_iff.mpr names, rfl⟩)
  refine ⟨indexed, ?_, ?_, ?_⟩
  · intro scope reads
    constructor
    · exact (Expr.compile_atom rfl scope reads).trans (congrArg (·, reads) (lookup names))
    · exact (Expr.compile_atom rfl scope reads).trans (congrArg (·, reads) (lookup (.string id)))
  · intro document
    rw [Document.project_idField, indexed]
    simp
  · intro σ τ collection Shows changes catalog world reads reflects shows declared
    rw [indexed]
    exact Collection.execute_idField reads reflects shows declared id

namespace Document

/-- A value that is not even a scalar is no identifier, for an equality as for a document. -/
theorem compile_structured {value : Json} (structured : value.Structured) (scope : Scope)
    (reads : List Nat) :
    ((Expr.atom .equal ⟨["id"]⟩ value).compile (Record.idMember Document) scope :
        Compilation (Operation String)).run reads =
      (.error (.badIdentifier value "id" (.wrongType value "a string")), reads) := by
  refine (Expr.compile_atom rfl scope reads).trans ?_
  cases structured <;> rfl

/-- An object whose `id` is a scalar is a document, under the identifier that the scalar stands for in
queries and in an index; one whose `id` is an array or object is refused, as are equalities with it. And
what is written of a document is its object with the identifier for `id`, which reads as the document. -/
theorem ofJson_identity {members : List (String × Json)} (object : Json.Sorted members) :
    (∀ value, Json.lookup? "id" members = some value → value.Scalar →
      ∃ id, value.Identifies id ∧ ∀ fresh, ∃ document,
        ofJson fresh (.object members) = .ok document ∧ document.id = id ∧
          idField.project document = .ok (.text id)) ∧
    (∀ value, Json.lookup? "id" members = some value → value.Structured →
      (∀ fresh, ofJson fresh (.object members) = .error (.structuredId value)) ∧
        ∀ scope reads,
          ((Expr.atom .equal ⟨["id"]⟩ value).compile (Record.idMember Document) scope :
              Compilation (Operation String)).run reads =
            (.error (.badIdentifier value "id" (.wrongType value "a string")), reads)) ∧
    ∀ fresh document, ofJson fresh (.object members) = .ok document →
      document.toJson = .object (Json.insertMember "id" (.string document.id) members) ∧
        (∀ key, key ≠ "id" → document.toJson.get? key = (Json.object members).get? key) ∧
        ∀ other, ofJson other document.toJson = .ok document := by
  refine ⟨?_, ?_, ?_⟩
  · intro value held scalar
    obtain ⟨id, names, indexed⟩ := scalar.namesText
    refine ⟨id, names.identifies indexed, fun fresh => ?_⟩
    exact ⟨_, ofJson_of_namesText held names fresh, rfl, project_idField _⟩
  · intro value held structured
    exact ⟨ofJson_of_structured held structured, compile_structured structured⟩
  · intro fresh document accepted
    have written := toJson_of_ofJson object accepted
    refine ⟨written, ?_, ?_⟩
    · intro key differs
      rw [written]
      exact Json.lookup?_insertMember_of_ne differs
    · refine ofJson_toJson ?_
      rw [body_of_ofJson accepted]
      exact Json.absent_eraseMember "id" members

theorem ofJson_identity_number :
    Json.Sorted [("id", .number (.integer 42)), ("name", .string "x")] ∧
      (Json.number (.integer 42)).Identifies "42" ∧
      ∃ document : Document,
        ofJson "fresh" (.object [("id", .number (.integer 42)), ("name", .string "x")]) = .ok document ∧
          document.toJson = .object [("id", .string "42"), ("name", .string "x")] := by
  have object : Json.Sorted [("id", .number (.integer 42)), ("name", .string "x")] := by
    simpa [Json.Sorted] using (by decide +kernel : "id" < "name")
  obtain ⟨identified, _, written⟩ := ofJson_identity object
  obtain ⟨id, identifies, reads⟩ := identified (.number (.integer 42)) (by decide +kernel) (.number _)
  obtain ⟨document, accepted, named, _⟩ := reads "fresh"
  have text : IndexValue.ofJson (.number (.integer 42)) = .text "42" := by decide +kernel
  obtain rfl : id = "42" := IndexValue.text.inj (identifies.indexed.symm.trans text)
  refine ⟨object, identifies, document, accepted, ?_⟩
  rw [(written "fresh" document accepted).1, named]
  decide +kernel

end Document

end DocStore
