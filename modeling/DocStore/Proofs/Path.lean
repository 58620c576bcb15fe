import DocStore.Path

namespace DocStore

theorem piecesBetween_eq_splitOn (separator : Char) (text : List Char) :
    piecesBetween separator text = text.splitOn separator := by
  induction text with
  | nil => rfl
  | cons c rest ih =>
    rw [piecesBetween, List.splitOn_cons_eq_if_modifyHead, ih]
    by_cases same : c = separator
    · rw [if_pos same, if_pos (beq_iff_eq.mpr same)]
    · rw [if_neg same, if_neg (same ∘ beq_iff_eq.mp)]
      cases split : rest.splitOn separator with
      | nil => exact absurd split (List.splitOn_ne_nil separator rest)
      | cons first others => rfl

theorem not_mem_of_mem_splitOn {separator : Char} {text piece : List Char}
    (member : piece ∈ text.splitOn separator) : separator ∉ piece := by
  induction text generalizing piece with
  | nil =>
    obtain rfl : piece = [] := by simpa using member
    exact List.not_mem_nil
  | cons c rest ih =>
    rw [List.splitOn_cons_eq_if_modifyHead] at member
    split at member
    case isTrue =>
      rcases List.mem_cons.mp member with rfl | later
      · exact List.not_mem_nil
      · exact ih later
    case isFalse differs =>
      cases split : rest.splitOn separator with
      | nil => exact absurd split (List.splitOn_ne_nil separator rest)
      | cons first others =>
        rw [split, List.modifyHead_cons] at member
        rw [split] at ih
        rcases List.mem_cons.mp member with rfl | later
        · have other : separator ≠ c := fun same => differs (beq_iff_eq.mpr same.symm)
          simp [other, ih (List.mem_cons_self ..)]
        · exact ih (List.mem_cons_of_mem _ later)

namespace Path

/-- No segment is empty or holds a dot. -/
def Plain (path : Path) : Prop :=
  ∀ segment ∈ path.segments, segment ≠ "" ∧ '.' ∉ segment.toList

instance (path : Path) : Decidable path.Plain :=
  inferInstanceAs (Decidable (∀ segment ∈ path.segments, segment ≠ "" ∧ '.' ∉ segment.toList))

/-- The path that the dotted name of a path is read as. An index is found by its name, so this is the
path of the field that an index for `path` covers. -/
def covered (path : Path) : Path := parse path.dotted

theorem segments_parse (text : String) :
    (parse text).segments =
      ((text.toList.splitOn '.').filter fun piece => !piece.isEmpty).map String.ofList := by
  rw [parse, piecesBetween_eq_splitOn]

/-- The segments read from a text are its pieces between dots that are not empty. -/
theorem segments_parse_eq_split (text : String) :
    (parse text).segments = ((text.split '.').toList.map String.Slice.copy).filter (· ≠ "") := by
  rw [segments_parse, String.toList_split_char, List.filter_map]
  congr 2
  funext piece
  cases piece <;> simp

theorem plain_parse (dotted : String) : (parse dotted).Plain := by
  intro segment member
  rw [segments_parse] at member
  obtain ⟨piece, kept, rfl⟩ := List.mem_map.mp member
  obtain ⟨found, nonempty⟩ := List.mem_filter.mp kept
  rw [String.toList_ofList]
  refine ⟨?_, not_mem_of_mem_splitOn found⟩
  intro empty
  have nil : piece = [] := by simpa using congrArg String.toList empty
  simp [nil] at nonempty

theorem segments_parse_append (left right : String) :
    (parse (left ++ "." ++ right)).segments = (parse left).segments ++ (parse right).segments := by
  have joined : (left ++ "." ++ right).toList = left.toList ++ '.' :: right.toList := by simp
  simp only [segments_parse, joined, List.splitOn_append_cons_self, List.filter_append, List.map_append]

/-- The dotted name of a path is read as what its segments are read as. -/
theorem segments_covered (path : Path) :
    path.covered.segments = path.segments.flatMap fun segment => (parse segment).segments := by
  obtain ⟨segments⟩ := path
  cases segments with
  | nil => rfl
  | cons first rest =>
    -- Dots only stand between two segments, so the induction is on those after the first.
    induction rest generalizing first with
    | nil => simp [covered, dotted]
    | cons second others ih =>
      rw [covered, dotted, String.intercalate_cons_cons, segments_parse_append, List.flatMap_cons]
      exact congrArg ((parse first).segments ++ ·) (ih second)

theorem parse_of_dotless {text : String} (nonempty : text ≠ "") (dotless : '.' ∉ text.toList) :
    parse text = ⟨[text]⟩ := by
  have kept : text.toList.isEmpty = false := by simpa using nonempty
  rw [parse, piecesBetween_eq_splitOn, List.splitOn_eq_singleton dotless]
  simp [kept]

theorem covered_of_plain {path : Path} (plain : path.Plain) : path.covered = path := by
  have own : ∀ segment ∈ path.segments, (parse segment).segments = [segment] := by
    intro segment member
    rw [parse_of_dotless (plain segment member).1 (plain segment member).2]
  have same : path.covered.segments = path.segments := by
    rw [segments_covered, List.flatMap_def, List.map_congr_left own, ← List.flatMap_def,
      List.flatMap_singleton']
  cases path
  exact congrArg Path.mk same

theorem covered_eq_iff {path : Path} : path.covered = path ↔ path.Plain :=
  ⟨fun same => same ▸ plain_parse path.dotted, covered_of_plain⟩

theorem Plain.eq_of_indexName {path other : Path} (plain : path.Plain) (alsoPlain : other.Plain)
    (same : path.indexName = other.indexName) : path = other := by
  rw [← covered_of_plain plain, ← covered_of_plain alsoPlain, covered, covered]
  exact congrArg (fun name => parse name.text) same

@[simp] theorem covered_parse (dotted : String) : (parse dotted).covered = parse dotted :=
  covered_of_plain (plain_parse dotted)

/-- A path or a name that was read from a text is read again from its own text. Of any other path the dotted
text is read as the pieces of its segments that are not empty; that is the path itself if and only if no
segment is empty or holds a dot, and such paths have the same index name only if they are the same. -/
theorem dotted_reading_exact :
    (∀ text, parse (parse text).dotted = parse text ∧
      IndexName.parse (IndexName.parse text).text = IndexName.parse text) ∧
    (∀ path : Path, (parse path.dotted).segments = path.segments.flatMap fun segment =>
      ((segment.split '.').toList.map String.Slice.copy).filter (· ≠ "")) ∧
    (∀ path : Path, parse path.dotted = path ↔ path.Plain) ∧
    ∀ path other : Path, path.Plain → other.Plain →
      (path.indexName = other.indexName ↔ path = other) := by
  refine ⟨?_, ?_, fun path => covered_eq_iff, ?_⟩
  · intro text
    exact ⟨covered_parse text, congrArg indexName (covered_parse text)⟩
  · intro path
    simp only [← segments_parse_eq_split]
    exact path.segments_covered
  · intro path other plain alsoPlain
    exact ⟨plain.eq_of_indexName alsoPlain, congrArg indexName⟩

/-- Dots around a text and between its pieces do not count, but a dot inside a segment does. -/
theorem dotted_reading_exact_nested :
    Plain ⟨["Birth", "Day"]⟩ ∧ (parse ".Birth..Day.").Plain ∧
      ⟨["Birth", "Day"]⟩ = parse ".Birth..Day." ∧
      parse (dotted ⟨["Birth.Day", ""]⟩) = ⟨["Birth", "Day"]⟩ ∧ ¬Plain ⟨["Birth.Day", ""]⟩ := by
  obtain ⟨_, _, itself, apart⟩ := dotted_reading_exact
  have plain : Plain ⟨["Birth", "Day"]⟩ := by decide +kernel
  have read : parse (dotted ⟨["Birth.Day", ""]⟩) = ⟨["Birth", "Day"]⟩ := by decide +kernel
  have alsoPlain := plain_parse ".Birth..Day."
  have differs : (⟨["Birth", "Day"]⟩ : Path) ≠ ⟨["Birth.Day", ""]⟩ := by decide +kernel
  exact ⟨plain, alsoPlain, (apart _ _ plain alsoPlain).mp (by decide +kernel), read,
    fun other => differs (read.symm.trans ((itself _).mpr other))⟩

end Path

end DocStore
