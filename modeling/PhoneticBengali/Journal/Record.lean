/-
# Log records

A record has a level, the name of its source, a message and further fields.  A
trace, if it has one, tells where the fault came from that it reports.  The levels
ascend from `debug` to `critical`.

Functions that report something besides their result return both: a value with
the records made on the way, in order.  An attempt may fail, and keeps the records
made up to then.
-/

import PhoneticBengali.Document.Basic

namespace PhoneticBengali

/-- How grave a record is. -/
inductive Level where
  | debug
  | info
  | warning
  | error
  | critical
deriving DecidableEq, Repr

namespace Level

/-- The name of a level in log lines. -/
def name : Level → String
  | debug => "DEBUG"
  | info => "INFO"
  | warning => "WARNING"
  | error => "ERROR"
  | critical => "CRITICAL"

/-- The place of a level in the order. -/
def rank : Level → Nat
  | debug => 10
  | info => 20
  | warning => 30
  | error => 40
  | critical => 50

end Level

/-- One entry of a log. -/
structure Record where
  level : Level
  source : Text
  message : Text
  fields : List (Text × Document) := []
  trace : Option Text := none
deriving Repr

/-- A record without fields. -/
def Record.plain (level : Level) (source message : Text) : Record where
  level := level
  source := source
  message := message

/-- A value and the records made on the way to it. -/
structure Noted (α : Type) where
  value : α
  records : List Record := []

namespace Noted

variable {α β : Type}

/-- The value changed, the records kept. -/
def map (f : α → β) (x : Noted α) : Noted β :=
  ⟨f x.value, x.records⟩

/-- The values of a list, with the records of all. -/
def all (xs : List (Noted α)) : Noted (List α) :=
  ⟨xs.map (·.value), xs.flatMap (·.records)⟩

end Noted

/-- A value, or a fault, and the records made on the way to it. -/
abbrev Attempt (ε α : Type) :=
  Noted (Except ε α)

namespace Attempt

variable {ε α β : Type}

/-- A fault, without a record. -/
def fail (fault : ε) : Attempt ε α :=
  ⟨.error fault, []⟩

/-- An attempt that goes on with the value of another, if it has one. -/
def andThen (x : Attempt ε α) (f : α → Attempt ε β) : Attempt ε β :=
  match x.value with
  | .error fault => ⟨.error fault, x.records⟩
  | .ok a => ⟨(f a).value, x.records ++ (f a).records⟩

/-- One attempt after the other, up to the first fault. -/
def all : List (Attempt ε α) → Attempt ε (List α)
  | [] => ⟨.ok [], []⟩
  | x :: rest => x.andThen fun a => (all rest).map (Except.map (a :: ·))

end Attempt

/-- The names under which records are made. -/
def packageSource : Text :=
  "banglit"

end PhoneticBengali
