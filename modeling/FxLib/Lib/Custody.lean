import Mathlib.Logic.Function.Basic
import Mathlib.Data.List.Basic

/-!
# Custody of resources

A log of what owners do with resources: take, use and release, the last two through a pointer that
may be null. The log is obeyed when nobody takes what is held, and only what an owner holds is used
or released by it.
-/

namespace Custody

inductive Act (O R : Type*) where
  | take (o : O) (r : R)
  | use (o : O) (r : Option R)
  | release (o : O) (r : Option R)

variable {O R : Type*} [DecidableEq O] [DecidableEq R]

/-- Who holds what after the entry, if the entry is allowed. -/
def play (held : R → Option O) : Act O R → Option (R → Option O)
  | .take o r => if held r = none then some (Function.update held r (some o)) else none
  | .use _ none | .release _ none => none
  | .use o (some r) => if held r = some o then some held else none
  | .release o (some r) =>
    if held r = some o then some (Function.update held r none) else none

/-- Who holds what after the log, the oldest entry first. -/
def holders (log : List (Act O R)) : Option (R → Option O) :=
  log.foldlM play fun _ => none

theorem holders_concat (log : List (Act O R)) (a : Act O R) :
    holders (log ++ [a]) = (holders log).bind (play · a) := by
  rw [holders, List.foldlM_append]
  cases h : List.foldlM play (fun _ => none) log with
  | none => simp [holders, h]
  | some held => simp [holders, h]

variable {log : List (Act O R)} {held : R → Option O} {o : O} {r : R}

theorem holders_take (h : holders log = some held) (hr : held r = none) :
    holders (log ++ [.take o r]) = some (Function.update held r (some o)) := by
  rw [holders_concat, h, Option.bind_some, play, if_pos hr]

theorem holders_use (h : holders log = some held) (hr : held r = some o) :
    holders (log ++ [.use o (some r)]) = some held := by
  rw [holders_concat, h, Option.bind_some, play, if_pos hr]

theorem holders_release (h : holders log = some held) (hr : held r = some o) :
    holders (log ++ [.release o (some r)]) = some (Function.update held r none) := by
  rw [holders_concat, h, Option.bind_some, play, if_pos hr]

end Custody
