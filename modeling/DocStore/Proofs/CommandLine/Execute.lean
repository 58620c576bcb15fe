import DocStore.Proofs.CommandLine.Search

namespace DocStore

open Database (foldName)

/-- The numbers of an inserted document read back from their texts. -/
def Command.Faithful : Command → Prop
  | .insert text => ∀ value, Json.read? text = some value → value.Faithful
  | _ => True

namespace CommandLine

variable {name : String} {paths : List String} {fresh text : String} {db : Database}
  {objects : Objects}

/-- A document that was read from a text can be stored. -/
theorem keeps_of_readDocument {document : Document}
    (faithful : (Command.insert text).Faithful) (read : readDocument fresh text = .ok document) :
    Codec.record.Keeps document := by
  cases found : Json.read? text with
  | none =>
    rw [readDocument, readJson, found] at read
    cases read
  | some value =>
    have accepted : Document.ofJson fresh value = .ok document := by
      rw [readDocument, readJson, found] at read
      change (Document.ofJson fresh value).mapError _ = _ at read
      cases made : Document.ofJson fresh value with
      | error cause =>
        rw [made] at read
        cases read
      | ok other =>
        rw [made] at read
        cases read
        rfl
    obtain ⟨ordered, shallow⟩ := Json.read?_ordered found
    exact (Document.wellFormed_of_ofJson ordered shallow (faithful value found) accepted).keeps

theorem readObject_eq (fresh text : String) :
    readObject fresh text = (readDocument fresh text).map fun document => (document.id, document.toJson) := by
  rw [readObject, readDocument, readJson]
  cases found : Json.read? text with
  | none => rfl
  | some value =>
    cases value with
    | object members =>
      have sorted : Json.Sorted members := (Json.read?_ordered found).1.1
      have written (id : String) :
          (.ok (id, .object (Json.insertMember "id" (.string id) members)) :
              Except AppError (String × Json)) =
            (Except.ok (⟨id, Json.eraseMember "id" members⟩ : Document)).map
              fun document => (document.id, document.toJson) := by
        rw [Except.map, Document.toJson, Json.insertMember_eraseMember sorted]
      change (readId fresh (Json.lookup? "id" members)).map _ =
        ((Document.ofJson fresh (.object members)).mapError _).map _
      rw [Document.ofJson]
      cases held : Json.lookup? "id" members with
      | none => exact written fresh
      | some value =>
        cases value with
        | null => exact written fresh
        | string id => exact written id
        | number shown => exact written (IndexValue.ofJson (.number shown)).display
        | boolean shown => cases shown <;> exact written _
        | _ => rfl
    | _ => rfl

theorem changeReport_eq (change id : String) (done : Bool) (after : ¬ change < "id") (differs : ¬ change = "id") :
    changeReport id change done = .object [("id", .string id), (change, .boolean done)] := by
  simp [changeReport, Json.ofMembers, Json.sortMembers, Json.insertMember, after, differs]

/-- Documents are never refused for what they hold. -/
theorem project_document (name : String) (paths : List String) (document : Document) :
    ∃ entries, (documents name paths).project document = .ok entries := by
  rcases (documents name paths).project_cases document with
    ⟨entries, _, projected⟩ | ⟨field, declared, reason, failed, _⟩
  · exact ⟨entries, projected⟩
  · obtain ⟨path, _, rfl⟩ := List.mem_map.mp declared
    cases failed

/-- A command answers on a database what the reference answers on some objects, and the database then
holds what the reference leaves of them. -/
def Serves (name : String) (paths : List String) (fresh : String) (command : Command) (db : Database)
    (objects : Objects) : Prop :=
  SameAnswer command (execute (documents name paths) fresh command db).1
      (serve paths fresh command objects).1 ∧
    Holds name paths (execute (documents name paths) fresh command db).2
      (serve paths fresh command objects).2

theorem Serves.of_eq {command : Command} {answer expected : Except AppError Json} {next : Database}
    {after : Objects} (ran : execute (documents name paths) fresh command db = (answer, next))
    (served : serve paths fresh command objects = (expected, after))
    (same : SameAnswer command answer expected) (holds : Holds name paths next after) :
    Serves name paths fresh command db objects := by
  rw [Serves, ran, served]
  exact ⟨same, holds⟩

/-- Objects by id that stand for what some changes leave go on to do so. -/
theorem put_stands {changes : List (Change Document String)}
    (same : ∀ id, objects.get? id = (Change.current? id changes).map Document.toJson) (document : Document)
    (id : String) : (objects.put document.id document.toJson).get? id =
      (Change.current? id (.put document :: changes)).map Document.toJson := by
  rw [Table.get?_put, same, Change.current?]
  by_cases own : id = document.id
  · have owned : Record.id document = id := own.symm
    rw [if_pos own, if_pos owned]
    rfl
  · have differs : ¬ Record.id document = id := fun owned => own owned.symm
    rw [if_neg own, if_neg differs]

theorem erase_stands {changes : List (Change Document String)}
    (same : ∀ id, objects.get? id = (Change.current? id changes).map Document.toJson) (other id : String) :
    (objects.erase other).get? id = (Change.current? id (.drop other :: changes)).map Document.toJson := by
  rw [Table.get?_erase, same, Change.current?]
  by_cases own : id = other
  · rw [if_pos own, if_pos own.symm]
    rfl
  · rw [if_neg own, if_neg (Ne.symm own)]

theorem insert_serves
    (distinct : ((memberFields paths).map fun field => foldName field.name.text).Nodup)
    (holds : Holds name paths db objects) (faithful : (Command.insert text).Faithful) :
    Serves name paths fresh (.insert text) db objects := by
  cases read : readDocument fresh text with
  | error cause =>
    have ran : execute (documents name paths) fresh (.insert text) db = (.error cause, db) := by
      rw [execute, read]
      rfl
    have served : serve paths fresh (.insert text) objects = (.error cause, objects) := by
      rw [serve, readObject_eq, read]
      rfl
    exact .of_eq ran served (.inl rfl) holds
  | ok document =>
    have given : readObject fresh text = .ok (document.id, document.toJson) := by
      rw [readObject_eq, read]
      rfl
    obtain ⟨changes, idle, same⟩ := holds
    obtain ⟨entries, projected⟩ := project_document name paths document
    obtain ⟨next, made, held⟩ :=
      idle.insert distinct (keeps_of_readDocument faithful read) projected
    have ran : execute (documents name paths) fresh (.insert text) db =
        (.ok (.object [("id", .string document.id),
          ("inserted", .boolean (Change.current? document.id changes).isNone)]), next) := by
      rw [execute, read, ← changeReport_eq "inserted" _ _ (by decide +kernel) (by decide)]
      exact Action.bind_of_ok (Action.mapError_of_ok made)
    have taken : objects.contains document.id = (Change.current? document.id changes).isSome := by
      rw [Table.contains_eq_isSome, same, Option.isSome_map]
    change Collection.Idle name (memberFields paths)
      (if (Change.current? document.id changes).isNone then .put document :: changes else changes)
      next at held
    cases current : Change.current? document.id changes with
    | some other =>
      rw [current] at ran taken held
      have served : serve paths fresh (.insert text) objects =
          (.ok (.object [("id", .string document.id), ("inserted", .boolean false)]), objects) := by
        rw [serve, given]
        exact if_pos taken
      exact .of_eq ran served (.inl rfl) ⟨changes, held, same⟩
    | none =>
      rw [current] at ran taken held
      have absent : ¬ objects.contains document.id = true := by
        rw [taken]
        exact Bool.false_ne_true
      have served : serve paths fresh (.insert text) objects =
          (.ok (.object [("id", .string document.id), ("inserted", .boolean true)]),
            objects.put document.id document.toJson) := by
        rw [serve, given]
        exact if_neg absent
      exact .of_eq ran served (.inl rfl) ⟨.put document :: changes, held, put_stands same document⟩

theorem remove_serves
    (distinct : ((memberFields paths).map fun field => foldName field.name.text).Nodup)
    (holds : Holds name paths db objects) (id : String) :
    Serves name paths fresh (.remove id) db objects := by
  obtain ⟨changes, idle, same⟩ := holds
  obtain ⟨next, made, held⟩ := idle.remove distinct id
  have ran : execute (documents name paths) fresh (.remove id) db =
      (.ok (.object [("id", .string id),
        ("removed", .boolean (Change.current? id changes).isSome)]), next) := by
    rw [← changeReport_eq "removed" _ _ (by decide +kernel) (by decide)]
    exact Action.bind_of_ok (Action.mapError_of_ok made)
  have served : serve paths fresh (.remove id) objects =
      (.ok (.object [("id", .string id),
        ("removed", .boolean (Change.current? id changes).isSome)]), objects.erase id) := by
    rw [serve, Table.contains_eq_isSome, same, Option.isSome_map]
  refine .of_eq ran served (.inl rfl) ⟨_, held, ?_⟩
  cases current : Change.current? id changes with
  | some document => exact erase_stands same id
  | none =>
    have absent : id ∉ objects.keys := by
      rw [← Table.get?_eq_none_iff, same, current]
      rfl
    rw [Table.erase_of_absent absent]
    exact same

theorem get_serves (holds : Holds name paths db objects) (id : String) :
    Serves name paths fresh (.get id) db objects := by
  obtain ⟨changes, idle, same⟩ := holds
  have planned : (documents name paths).plan .empty
      (Expr.atom .equal (Path.parse "id") (.string id)) = .ok (.byId id) := by
    rfl
  obtain ⟨next, found, held⟩ := idle.find_byId planned
  have one := Collection.findOne_of_find found
  have only : Collection.onlyRecord (Change.current? id changes).toList =
      .ok (Change.current? id changes) := by
    cases Change.current? id changes <;> rfl
  rw [only] at one
  have ran : execute (documents name paths) fresh (.get id) db =
      (.ok (optionalDocument (Change.current? id changes)), next) :=
    Action.bind_of_ok (Action.mapError_of_ok one)
  have served : serve paths fresh (.get id) objects =
      (.ok (optionalDocument (Change.current? id changes)), objects) := by
    rw [serve, same]
    cases Change.current? id changes <;> rfl
  exact .of_eq ran served (.inl rfl) ⟨changes, held, same⟩

theorem find_serves (holds : Holds name paths db objects) :
    Serves name paths fresh (.find text) db objects := by
  cases read : readFilter paths text with
  | error cause =>
    have ran : execute (documents name paths) fresh (.find text) db = (.error cause, db) := by
      rw [execute_find]
      exact Action.bind_of_error (search_refused read db)
    have served : serve paths fresh (.find text) objects = (.error cause, objects) := by
      rw [serve, read]
      rfl
    exact .of_eq ran served (.inl rfl) holds
  | ok filter =>
    obtain ⟨found, next, success, held, exact⟩ := search_accepted holds read
    have ran : execute (documents name paths) fresh (.find text) db =
        (.ok (.array (found.map Document.toJson)), next) := by
      rw [execute_find]
      exact Action.bind_of_ok success
    have served : serve paths fresh (.find text) objects =
        (.ok (.array (matching objects filter)), objects) := by
      rw [serve, read]
      rfl
    exact .of_eq ran served (.inr ⟨text, _, _, rfl, rfl, rfl, exact⟩) held

/-- Whether one object, none or several are found does not depend on their order. -/
theorem onlyObject_perm {found others : List Json} (same : found.Perm others) :
    onlyObject found = onlyObject others := by
  match found with
  | [] => rw [List.nil_perm.mp same]
  | [object] => rw [List.singleton_perm.mp same]
  | first :: second :: rest =>
    have size := same.length_eq
    match others with
    | [] => cases size
    | [_] => cases size
    | _ :: _ :: _ =>
      simp only [onlyObject]
      rw [size]

theorem findOne_serves (holds : Holds name paths db objects) :
    Serves name paths fresh (.findOne text) db objects := by
  cases read : readFilter paths text with
  | error cause =>
    have ran : execute (documents name paths) fresh (.findOne text) db = (.error cause, db) := by
      rw [execute_findOne]
      exact Action.bind_of_error (search_refused read db)
    have served : serve paths fresh (.findOne text) objects = (.error cause, objects) := by
      rw [serve, read]
      rfl
    exact .of_eq ran served (.inl rfl) holds
  | ok filter =>
    obtain ⟨found, next, success, held, exact⟩ := search_accepted holds read
    have ran : execute (documents name paths) fresh (.findOne text) db =
        (onlyObject (matching objects filter), next) := by
      rw [execute_findOne, Action.bind_of_ok success, onlyObject_perm exact]
      rfl
    have served : serve paths fresh (.findOne text) objects =
        (onlyObject (matching objects filter), objects) := by
      rw [serve, read]
      rfl
    exact .of_eq ran served (.inl rfl) held

private theorem mergeSort_of_perm {texts others : List String} (same : texts.Perm others) :
    (texts.mergeSort fun a b => decide (a ≤ b)) = others.mergeSort fun a b => decide (a ≤ b) := by
  have sorted (row : List String) :
      (row.mergeSort fun a b => decide (a ≤ b)).Pairwise fun a b => decide (a ≤ b) = true := by
    apply List.pairwise_mergeSort
    · intro first second third former latter
      simp only [decide_eq_true_eq] at former latter ⊢
      exact String.le_trans former latter
    · intro first second
      simpa using String.le_total first second
  have kept := (List.mergeSort_perm texts fun a b => decide (a ≤ b)).trans
    (same.trans (List.mergeSort_perm others fun a b => decide (a ≤ b)).symm)
  refine List.Perm.eq_of_pairwise ?_ (sorted texts) (sorted others) kept
  intro first second _ _ before after
  simp only [decide_eq_true_eq] at before after
  exact String.le_antisymm before after

theorem keys_serves (holds : Holds name paths db objects) :
    Serves name paths fresh .keys db objects := by
  obtain ⟨changes, idle, same⟩ := holds
  obtain ⟨found, success, distinct, exact⟩ := idle.keys
  have ran : execute (documents name paths) fresh .keys db =
      (.ok (.array ((found.mergeSort fun a b => decide (a ≤ b)).map .string)), db) :=
    Action.bind_of_ok (Action.mapError_of_ok success)
  have keys : found.Perm objects.keys := by
    refine (List.perm_ext_iff_of_nodup distinct objects.distinct).mpr ?_
    intro id
    rw [exact id]
    change _ ↔ id ∈ objects.keys
    rw [Table.mem_keys_iff_isSome, same, Option.isSome_map, Option.ne_none_iff_isSome]
  rw [mergeSort_of_perm keys] at ran
  exact .of_eq ran rfl (.inl rfl) ⟨changes, idle, same⟩

variable (fresh) in
theorem execute_serves
    (distinct : ((memberFields paths).map fun field => foldName field.name.text).Nodup)
    {command : Command} (faithful : command.Faithful) (holds : Holds name paths db objects) :
    Serves name paths fresh command db objects := by
  cases command with
  | insert text => exact insert_serves distinct holds faithful
  | remove id => exact remove_serves distinct holds id
  | get id => exact get_serves holds id
  | find filter => exact find_serves holds
  | findOne filter => exact findOne_serves holds
  | keys => exact keys_serves holds

def storedObject? (name : String) (db : Database) (id : String) : Option Json :=
  (Database.storedIn? db.committed.contents name Codec.identifier (Codec.record : Codec Document)
    id).map Document.toJson

theorem Holds.storedObject? (holds : Holds name paths db objects) (id : String) :
    CommandLine.storedObject? name db id = objects.get? id := by
  obtain ⟨changes, idle, same⟩ := holds
  have shown := idle.sound.committed.agree.1 id
  rw [CommandLine.storedObject?, shown, same]

theorem Holds.of_failed
    (distinct : ((memberFields paths).map fun field => foldName field.name.text).Nodup)
    (holds : Holds name paths db objects) {command : Command} (faithful : command.Faithful)
    {error : AppError} {next : Database}
    (failed : execute (documents name paths) fresh command db = (.error error, next)) :
    Holds name paths next objects := by
  obtain ⟨same, held⟩ := execute_serves fresh distinct faithful holds
  rw [failed] at same held
  have refused : serve paths fresh command objects =
      (.error error, (serve paths fresh command objects).2) := Prod.ext same.error rfl
  rw [serve_of_error refused] at held
  exact held

/-- Whatever commands are run, one after the other, on a collection of documents opened in an unused
database, they answer what a map from the texts of ids to objects answers, up to the order in which
objects are found; the database then holds the objects of that map; and a command that fails leaves the
objects as they are. -/
theorem execute_session_exact (name : String) (paths : List String)
    (distinct : (paths.map fun path => foldName (IndexName.parse path).text).Nodup)
    {collection : DocumentCollection} {start : Database}
    (opened : Collection.openStored name (memberFields paths) .empty = (.ok collection, start))
    {calls : List (String × Command)} (faithful : ∀ call ∈ calls, call.2.Faithful)
    {answers : List (Command × Except AppError Json)} {db : Database}
    (ran : session (execute collection) calls start = (answers, db))
    {expected : List (Command × Except AppError Json)} {objects : Objects}
    (served : session (serve paths) calls .empty = (expected, objects)) :
    List.Forall₂ (fun answer wanted => answer.1 = wanted.1 ∧
        SameAnswer answer.1 answer.2 wanted.2) answers expected ∧
      (∀ id, storedObject? name db id = objects.get? id) ∧
      ∀ fresh command error next, command.Faithful →
        execute collection fresh command db = (.error error, next) →
        ∀ id, storedObject? name next id = storedObject? name db id := by
  have apart : ((memberFields paths).map fun field => foldName field.name.text).Nodup := by
    rw [memberFields, List.map_map]
    exact distinct
  obtain ⟨rfl, idle⟩ := Collection.idle_opened opened
  have initial : Holds name paths start .empty := ⟨[], idle, fun _ => rfl⟩
  have step (fresh : String) (command : Command) (db : Database) (objects : Objects)
      (faithful : command.Faithful) (holds : Holds name paths db objects) :
      Serves name paths fresh command db objects := execute_serves fresh apart faithful holds
  have related : List.Forall₂ (fun answer wanted => answer.1 = wanted.1 ∧
        SameAnswer answer.1 answer.2 wanted.2)
        (session (execute (documents name paths)) calls start).1
        (session (serve paths) calls .empty).1 ∧
      Holds name paths (session (execute (documents name paths)) calls start).2
        (session (serve paths) calls .empty).2 := session_same step faithful initial
  obtain ⟨same, holds⟩ := related
  rw [ran, served] at same holds
  refine ⟨same, holds.storedObject?, ?_⟩
  intro fresh command error next faithful failed id
  rw [(holds.of_failed apart faithful failed).storedObject?, holds.storedObject?]

/-- A document is inserted and found, a second one of the same id is refused, and the document is removed.
One without an id gets a fresh one. -/
def insertedTwice : List (String × Command) :=
  [("first", .insert "\x7b\"id\":7,\"a\":\x7b\"b\":1\x7d\x7d"),
    ("second", .insert "\x7b\"id\":\"7\"\x7d"), ("third", .find "\x7b\"a.b\":1\x7d"),
    ("fourth", .find "\x7b\"b\":1\x7d"), ("fifth", .get "7"), ("sixth", .remove "7"),
    ("seventh", .remove "7"), ("eighth", .get "7"), ("ninth", .insert "\x7b\"id\":null\x7d"),
    ("tenth", .insert "\x7b\"id\":[]\x7d"), ("eleventh", .keys)]

def insertedTwiceAnswers : List (Command × Except AppError Json) :=
  [(.insert "\x7b\"id\":7,\"a\":\x7b\"b\":1\x7d\x7d",
      .ok (.object [("id", .string "7"), ("inserted", .boolean true)])),
    (.insert "\x7b\"id\":\"7\"\x7d",
      .ok (.object [("id", .string "7"), ("inserted", .boolean false)])),
    (.find "\x7b\"a.b\":1\x7d", .ok (.array
      [.object [("a", .object [("b", .number (.integer 1))]), ("id", .string "7")]])),
    (.find "\x7b\"b\":1\x7d", .error (.query (.unknownIndex ⟨"b"⟩))),
    (.get "7", .ok (.object [("a", .object [("b", .number (.integer 1))]), ("id", .string "7")])),
    (.remove "7", .ok (.object [("id", .string "7"), ("removed", .boolean true)])),
    (.remove "7", .ok (.object [("id", .string "7"), ("removed", .boolean false)])),
    (.get "7", .ok .null),
    (.insert "\x7b\"id\":null\x7d",
      .ok (.object [("id", .string "ninth"), ("inserted", .boolean true)])),
    (.insert "\x7b\"id\":[]\x7d",
      .error (.invalidDocument "`id` must be a string, number or boolean, found []")),
    (.keys, .ok (.array [.string "ninth"]))]

theorem insertedTwice_faithful : ∀ call ∈ insertedTwice, call.2.Faithful := by
  have first : Json.read? "\x7b\"id\":7,\"a\":\x7b\"b\":1\x7d\x7d" = some (.object
      [("a", .object [("b", .number (.integer 1))]), ("id", .number (.integer 7))]) := by
    decide +kernel
  have second : Json.read? "\x7b\"id\":\"7\"\x7d" = some (.object [("id", .string "7")]) := by
    decide +kernel
  have ninth : Json.read? "\x7b\"id\":null\x7d" = some (.object [("id", .null)]) := by
    decide +kernel
  have tenth : Json.read? "\x7b\"id\":[]\x7d" = some (.object [("id", .array [])]) := by
    decide +kernel
  have numbers : ∀ whole ∈ [(1 : Int), 7],
      Number.ofChars? (Number.integer whole).text.toList = some (.integer whole) := by
    decide +kernel
  simp [insertedTwice, Command.Faithful, first, second, ninth, tenth, Json.Faithful, Json.FaithfulItems,
    Json.FaithfulMembers, Json.FaithfulMember, numbers]

theorem execute_session_insertedTwice :
    (["a.b"].map fun path => foldName (IndexName.parse path).text).Nodup ∧
      ∃ start, Collection.openStored "docs" (memberFields ["a.b"]) .empty =
          (.ok (documents "docs" ["a.b"]), start) ∧
        List.Forall₂ (fun answer wanted => answer.1 = wanted.1 ∧
            SameAnswer answer.1 answer.2 wanted.2)
          (session (execute (documents "docs" ["a.b"])) insertedTwice start).1
          insertedTwiceAnswers := by
  have distinct : (["a.b"].map fun path => foldName (IndexName.parse path).text).Nodup := by simp
  have opened : Collection.openStored "docs" (memberFields ["a.b"]) .empty =
      (.ok (documents "docs" ["a.b"]), _) :=
    Collection.openStored_of_isOk Database.unused_empty (by decide +kernel)
  obtain ⟨same, _, _⟩ :=
    execute_session_exact "docs" ["a.b"] distinct opened insertedTwice_faithful Prod.mk.eta.symm
      Prod.mk.eta.symm
  have expected : (session (serve ["a.b"]) insertedTwice .empty).1 = insertedTwiceAnswers := by
    decide +kernel
  rw [expected] at same
  exact ⟨distinct, _, opened, same⟩

end CommandLine

end DocStore
