import Mathlib.Data.List.Basic
import Mathlib.Tactic.Common

/-!
# Computations with a log that may give up

A computation appends entries to a log and either returns a value or gives up.  Giving up keeps the
log: what has been done stays done.  This is the shape of C code whose error macro returns from the
function, seen through the calls it has made so far.
-/

namespace Lib

variable {ε α β : Type}

/-- A computation with a log of entries `ε`; the value is `none` when it gives up. -/
def Logged (ε α : Type) : Type := List ε → Option α × List ε

namespace Logged

def run (x : Logged ε α) (log : List ε) : Option α × List ε := x log

instance : Monad (Logged ε) where
  pure a := fun log => (some a, log)
  bind x f := fun log =>
    match x log with
    | (some a, log') => f a log'
    | (none, log') => (none, log')

/-- Goes on only when the status is good. -/
def validate (ok : Bool) : Logged ε Unit := fun log => (if ok then some () else none, log)

/-- Goes on only when every status of the list is good. -/
def validateAll : List Bool → Logged ε Unit
  | [] => pure ()
  | ok :: oks => do
    validate ok
    validateAll oks

/-- A check made only under a condition. -/
def validateIf (condition ok : Bool) : Logged ε Unit :=
  if condition then validate ok else pure ()

def record (e : ε) : Logged ε Unit := fun log => (some (), log ++ [e])

variable (log : List ε)

@[simp] theorem run_pure (a : α) : (pure a : Logged ε α).run log = (some a, log) := rfl

@[simp] theorem run_record_bind (e : ε) (f : Unit → Logged ε β) :
    (record e >>= f).run log = (f ()).run (log ++ [e]) := rfl

theorem run_validate_bind (ok : Bool) (f : Unit → Logged ε β) :
    (validate ok >>= f).run log = if ok then (f ()).run log else (none, log) := by
  cases ok <;> rfl

theorem validateIf_eq (condition ok : Bool) :
    (validateIf condition ok : Logged ε Unit) = validate (!condition || ok) := by
  cases condition <;> rfl

/-- Two checks in a row are one check. -/
theorem validate_validate (a b : Bool) (f : Unit → Logged ε α) :
    (validate a >>= fun _ => validate b >>= f) = (validate (a && b) >>= f) := by
  cases a <;> rfl

/-- A block of checks is one check. -/
theorem validateAll_eq (oks : List Bool) :
    (validateAll oks : Logged ε Unit) = validate (oks.all id) := by
  induction oks with
  | nil => rfl
  | cons ok oks ih =>
    cases ok with
    | false => rfl
    | true =>
      rw [validateAll, ih]
      rfl

end Logged

end Lib
