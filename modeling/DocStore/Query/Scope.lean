import DocStore.Json.Basic

namespace DocStore

/-- What reading a captured value gives after the reads that came before, the latest one first. -/
structure Scope where
  read : List Nat → Nat → Except String Json

inductive Capture where
  | constant (value : Json)
  /-- A value without a JSON form, and the reason. -/
  | failing (reason : String)
  /-- The 64-bit integers from `start`, one more at each reading and around after the last. -/
  | counter (start : Int64)
deriving DecidableEq, Repr

namespace Capture

def value (capture : Capture) (earlier : Nat) : Except String Json :=
  match capture with
  | .constant value => .ok value
  | .failing reason => .error reason
  | .counter start => .ok (.number (.integer (start + .ofNat earlier).toInt))

/-- A captured value in diagnostics, where it is not read. -/
def shown (_ : Capture) : String := "Capture(..)"

end Capture

namespace Scope

/-- The scope in which slot `n` holds the `n`-th capture. -/
def ofCaptures (captures : List Capture) : Scope where
  read reads slot :=
    match captures[slot]? with
    | some capture => capture.value (reads.count slot)
    | none => .error "nothing is captured here"

def empty : Scope := ofCaptures []

end Scope

end DocStore
