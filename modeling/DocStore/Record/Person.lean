import DocStore.Record

namespace DocStore

structure BirthDate where
  year : Int32
  month : UInt32
  day : UInt32
deriving DecidableEq, Repr

structure Person where
  id : UInt32
  firstName : String
  lastname : String
  score : Int32
  birth : BirthDate
deriving DecidableEq, Repr

namespace Person

private def natural? (value : Json) : Option UInt32 := (Identifier.ofJson value).toOption

private def integer? (value : Json) : Option Int32 :=
  ((value.integerWithin (-2 ^ 31) (2 ^ 31 - 1) "i32").toOption).map Int32.ofInt

private def text? (value : Json) : Option String := (Identifier.ofJson value).toOption

/-- Reads a date of birth from its members, or from their row in order. -/
private def birth? (value : Json) : Option BirthDate := do
  let (year, month, day) ← match value with
    | .array [year, month, day] => some (year, month, day)
    | .array _ => none
    | value => do some (← value.get? "Year", ← value.get? "Month", ← value.get? "Day")
  some { year := ← integer? year, month := ← natural? month, day := ← natural? day }

def ofJson? (value : Json) : Option Person := do
  let birth ← birth? (← value.get? "Birth")
  some
    { id := ← natural? (← value.get? "Id")
      firstName := ← text? (← value.get? "FirstName")
      lastname := ← text? (← value.get? "Lastname")
      score := ← integer? (← value.get? "Score")
      birth }

private def whole (value : Int) : Json := .number (.integer value)

def toJson (person : Person) : Json :=
  .object [
    ("Birth", .object [
      ("Day", whole person.birth.day.toNat),
      ("Month", whole person.birth.month.toNat),
      ("Year", whole person.birth.year.toInt)]),
    ("FirstName", .string person.firstName),
    ("Id", whole person.id.toNat),
    ("Lastname", .string person.lastname),
    ("Score", whole person.score.toInt)]

end Person

instance : Record Person UInt32 where
  idMember := "Id"
  id := Person.id
  toJson person := .ok person.toJson
  ofStored? value := Person.ofJson? value.sorted

end DocStore
