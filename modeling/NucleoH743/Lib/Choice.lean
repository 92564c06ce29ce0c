import NucleoH743.Lib.Prog

/-!
# `Lib.Choice`: programs whose operations have a choice

Each operation of a program changes a state and gets an answer, both under a choice `x : χ` of
the environment. `Prog.runWith` takes the choices from a stream `ω`, one for each operation.
`Prog.Always ok Q` says that the program ends in a value and a state with `Q` whatever the
choices are, as long as each is `ok`.

`Always` is to all choices what a Hoare triple is to all inputs. A choice that is not `ok` is left
out, which is how an assumption on the environment enters, such as that no operation fails; with an
`ok` that is always true the statement is about every behaviour of the environment.

The rules follow the structure of a program, so what a function does is proved from what the
functions that it calls do.

- `always_bind`, `always_mono`, `always_and`: the rules of sequence, consequence and conjunction.
- `always_interp`: a program over a lower interface.
- `always_runWith`: what is proved for all choices holds of each run.
- `runWith_map`: a run on a function of the state.
-/

set_option autoImplicit false

namespace Prog

variable {Op : Type} {Res : Op → Type} {α β σ χ : Type}

section Def
variable (handle : χ → (o : Op) → σ → Res o × σ)

/-- Run the program on a state, with the choice `ω n` for its `n`-th operation. -/
def runWith : Prog Op Res α → (Nat → χ) → σ → α × σ
  | ret a, _, s => (a, s)
  | op o k, ω, s =>
    (k (handle (ω 0) o s).1).runWith (fun n => ω (n + 1)) (handle (ω 0) o s).2

/-- The program ends in a value and a state with `Q`, under all choices that are `ok`. -/
def Always (ok : χ → Prop) (Q : α → σ → Prop) : Prog Op Res α → σ → Prop
  | ret a, s => Q a s
  | op o k, s => ∀ x, ok x → (k (handle x o s).1).Always ok Q (handle x o s).2

end Def

section Rules
variable {handle : χ → (o : Op) → σ → Res o × σ} {ok : χ → Prop}

/-- A program that returns at once ends with `Q` iff `Q` holds of its value. -/
@[simp] theorem always_ret {a : α} {Q : α → σ → Prop} {s : σ} :
    (ret a : Prog Op Res α).Always handle ok Q s ↔ Q a s := Iff.rfl

/-- A program that calls first ends with `Q` iff the rest does, for every choice that is allowed. -/
@[simp] theorem always_op {o : Op} {k : Res o → Prog Op Res α} {Q : α → σ → Prop} {s : σ} :
    (op o k).Always handle ok Q s ↔
      ∀ x, ok x → (k (handle x o s).1).Always handle ok Q (handle x o s).2 := Iff.rfl

/-- The rule of sequence. -/
theorem always_bind {p : Prog Op Res α} {f : α → Prog Op Res β} {Q : β → σ → Prop} {s : σ} :
    (p >>= f).Always handle ok Q s ↔
      p.Always handle ok (fun a s => (f a).Always handle ok Q s) s := by
  induction p generalizing s with
  | ret a => exact Iff.rfl
  | op o k ih => exact forall_congr' fun x => imp_congr_right fun _ => ih _

/-- The rule of consequence. -/
theorem always_mono {Q R : α → σ → Prop} (hQR : ∀ a s, Q a s → R a s) {p : Prog Op Res α}
    {s : σ} (h : p.Always handle ok Q s) : p.Always handle ok R s := by
  induction p generalizing s with
  | ret a => exact hQR a s h
  | op o k ih => exact fun x hx => ih _ (h x hx)

/-- Two results of one program. -/
theorem always_and {Q R : α → σ → Prop} {p : Prog Op Res α} {s : σ}
    (hQ : p.Always handle ok Q s) (hR : p.Always handle ok R s) :
    p.Always handle ok (fun a s => Q a s ∧ R a s) s := by
  induction p generalizing s with
  | ret a => exact ⟨hQ, hR⟩
  | op o k ih => exact fun x hx => ih _ (hQ x hx) (hR x hx)

/-- A second result under a hypothesis. -/
theorem always_and_imp {H : Prop} {Q R : α → σ → Prop} {p : Prog Op Res α} {s : σ}
    (hQ : p.Always handle ok Q s) (hR : H → p.Always handle ok R s) :
    p.Always handle ok (fun a s => Q a s ∧ (H → R a s)) s := by
  by_cases hH : H
  · exact always_mono (fun _ _ h => ⟨h.1, fun _ => h.2⟩) (always_and hQ (hR hH))
  · exact always_mono (fun _ _ h => ⟨h, fun h' => absurd h' hH⟩) hQ

/-- A sequence, given what its first part ends in. -/
theorem always_seq {p : Prog Op Res α} {f : α → Prog Op Res β} {P : α → σ → Prop}
    {Q : β → σ → Prop} {s : σ} (hp : p.Always handle ok P s)
    (hf : ∀ a s, P a s → (f a).Always handle ok Q s) : (p >>= f).Always handle ok Q s :=
  always_bind.mpr (always_mono hf hp)

/-- Operations that become programs which do the same. -/
theorem always_interp {Op' : Type} {Res' : Op' → Type} {handle' : χ → (o : Op') → σ → Res' o × σ}
    {f : (o : Op) → Prog Op' Res' (Res o)}
    (hop : ∀ o s (Q : Res o → σ → Prop), (∀ x, ok x → Q (handle x o s).1 (handle x o s).2) →
      (f o).Always handle' ok Q s)
    {Q : α → σ → Prop} {p : Prog Op Res α} {s : σ} (h : p.Always handle ok Q s) :
    (p.interp f).Always handle' ok Q s := by
  induction p generalizing s with
  | ret a => exact h
  | op o k ih =>
    rw [interp, always_bind]
    exact hop o s _ fun x hx => ih _ (h x hx)

/-- What holds under all choices holds of a run. -/
theorem always_runWith {Q : α → σ → Prop} {p : Prog Op Res α} {s : σ}
    (h : p.Always handle ok Q s) {ω : Nat → χ} (hω : ∀ n, ok (ω n)) :
    Q (p.runWith handle ω s).1 (p.runWith handle ω s).2 := by
  induction p generalizing s ω with
  | ret a => exact h
  | op o k ih => exact ih _ (h (ω 0) (hω 0)) fun n => hω (n + 1)

/-- A value that is computed from the value of a run. -/
theorem runWith_bind_ret (p : Prog Op Res α) (f : α → β) (ω : Nat → χ) (s : σ) :
    (p >>= fun a => ret (f a)).runWith handle ω s =
      (f (p.runWith handle ω s).1, (p.runWith handle ω s).2) := by
  induction p generalizing s ω with
  | ret a => rfl
  | op o k ih => exact ih _ _ _

/-- A run on what `f` keeps of the state, where the answers depend on no more than that. -/
theorem runWith_map {τ : Type} {handle' : χ → (o : Op) → τ → Res o × τ} {f : σ → τ}
    (hop : ∀ x o s, handle' x o (f s) = ((handle x o s).1, f (handle x o s).2))
    (p : Prog Op Res α) (ω : Nat → χ) (s : σ) :
    p.runWith handle' ω (f s) = ((p.runWith handle ω s).1, f (p.runWith handle ω s).2) := by
  induction p generalizing s ω with
  | ret a => rfl
  | op o k ih =>
    show (k (handle' (ω 0) o (f s)).1).runWith handle' _ (handle' (ω 0) o (f s)).2 = _
    rw [hop]
    exact ih _ _ _

end Rules

end Prog
