import Mathlib.Tactic.Common

/-!
# `Lib.Prog`: programs over an interface

A `Prog Op Res α` is a finite program that calls operations `o : Op`, each answered by a value
of `Res o`, and returns an `α`. It has the answers as its only input, so two runs with the
same answers are equal, and what a program can do is a statement about its operations.

A program is a tree and not a function on a state, which has two uses. The same program can be given
several meanings: it is evaluated under answers that are fixed, run on a state, or translated to
another interface. And a statement on the calls that it makes, in any order of answers, is an
induction over the tree.

The rules of `Wp` are those of a program logic without a state: the knowledge takes the place of an
assertion, and grows with each answer.

- `Prog.eval`: the value under fixed answers; `Prog.eval_congr`: it depends only on the answers
  to the operations it calls.
- `Prog.run`: the run of a program on a state that answers the operations; `Prog.run_eval`: a
  state whose answers do not change gives the value under these answers.
- `Prog.interp`: the same program over a lower interface; `Prog.wp_interp` is its rule.
- `Prog.Wp`: what holds of every operation and of the value, under all answers, given what the
  earlier answers tell; `Prog.wp_bind` and `Prog.wp_mono` build it along a program.
-/

set_option autoImplicit false

/-- Programs that call operations `Op` with answers `Res` and return an `α`. -/
inductive Prog (Op : Type) (Res : Op → Type) (α : Type) where
  | ret (a : α)
  | op (o : Op) (k : Res o → Prog Op Res α)

namespace Prog

variable {Op : Type} {Res : Op → Type} {α β γ σ : Type}

/-! ### The monad -/

/-- Run `p`, then `f` on its value. -/
def bind (p : Prog Op Res α) (f : α → Prog Op Res β) : Prog Op Res β :=
  match p with
  | ret a => f a
  | op o k => op o fun r => (k r).bind f

instance : Monad (Prog Op Res) where
  pure := ret
  bind := bind

/-- Call one operation. -/
def call (o : Op) : Prog Op Res (Res o) := op o ret

/-- A program that returns at once hands its value on. -/
@[simp] theorem ret_bind (a : α) (f : α → Prog Op Res β) : (ret a >>= f) = f a := rfl

/-- `pure` is a program that calls nothing. -/
@[simp] theorem pure_eq (a : α) : (pure a : Prog Op Res α) = ret a := rfl

/-- A program that calls first goes on behind the call. -/
@[simp] theorem op_bind (o : Op) (k : Res o → Prog Op Res α) (f : α → Prog Op Res β) :
    (op o k >>= f) = op o fun r => k r >>= f := rfl

/-- One call, and what follows. -/
@[simp] theorem call_bind (o : Op) (f : Res o → Prog Op Res β) : (call o >>= f) = op o f := rfl

/-- To return what a program returns adds nothing. By induction on the program. -/
theorem bind_ret (p : Prog Op Res α) : (p >>= ret) = p := by
  induction p with
  | ret a => rfl
  | op o k ih => simp only [op_bind, ih]

/-- Three programs in a row may be put together in both ways. By induction on the first. -/
theorem bind_assoc (p : Prog Op Res α) (f : α → Prog Op Res β) (g : β → Prog Op Res γ) :
    (p >>= f >>= g) = p >>= fun a => f a >>= g := by
  induction p with
  | ret a => rfl
  | op o k ih => simp only [op_bind, ih]

instance : LawfulMonad (Prog Op Res) := LawfulMonad.mk' _ bind_ret (fun _ _ => rfl) bind_assoc

/-! ### Fixed answers -/

section Eval
variable (answer : (o : Op) → Res o)

/-- The value of the program under the answers `answer`. -/
def eval : Prog Op Res α → α
  | ret a => a
  | op o k => (k (answer o)).eval

/-- Every operation called under the answers `answer` satisfies `P`. -/
def Uses (P : Op → Prop) : Prog Op Res α → Prop
  | ret _ => True
  | op o k => P o ∧ (k (answer o)).Uses P

/-- The value of a program that returns at once. -/
@[simp] theorem eval_ret (a : α) : (ret a : Prog Op Res α).eval answer = a := rfl

/-- Two programs in a row are evaluated one after the other. -/
@[simp] theorem eval_bind (p : Prog Op Res α) (f : α → Prog Op Res β) :
    (p >>= f).eval answer = (f (p.eval answer)).eval answer := by
  induction p with
  | ret a => rfl
  | op o k ih => exact ih (answer o)

/-- A sequence of programs uses what its parts use. -/
theorem uses_bind (P : Op → Prop) (p : Prog Op Res α) (f : α → Prog Op Res β) :
    (p >>= f).Uses answer P ↔ p.Uses answer P ∧ (f (p.eval answer)).Uses answer P := by
  induction p with
  | ret a => exact ⟨fun h => ⟨trivial, h⟩, fun h => h.2⟩
  | op o k ih => exact (and_congr_right fun _ => ih (answer o)).trans and_assoc.symm

variable {answer} {P : Op → Prop}

/-- The value of a program depends only on the answers to the operations it calls. By induction on
the program. -/
theorem eval_congr {answer' : (o : Op) → Res o} (heq : ∀ o, P o → answer o = answer' o)
    {p : Prog Op Res α} (h : p.Uses answer P) : p.eval answer = p.eval answer' := by
  induction p with
  | ret a => rfl
  | op o k ih =>
    obtain ⟨ho, hk⟩ := h
    show (k (answer o)).eval answer = (k (answer' o)).eval answer'
    rw [ih (answer o) hk, heq o ho]

instance decidableUses [DecidablePred P] :
    (p : Prog Op Res α) → Decidable (p.Uses answer P)
  | ret _ => isTrue trivial
  | op o k =>
    have := decidableUses (k (answer o))
    inferInstanceAs (Decidable (P o ∧ (k (answer o)).Uses answer P))

end Eval

/-! ### Answers from a state -/

section Run
variable (handle : (o : Op) → σ → Res o × σ)

/-- Run the program on a state that answers its operations. -/
def run : Prog Op Res α → σ → α × σ
  | ret a, s => (a, s)
  | op o k, s => (k (handle o s).1).run (handle o s).2

/-- A program that calls nothing leaves the state alone. -/
@[simp] theorem run_ret (a : α) (s : σ) : (ret a : Prog Op Res α).run handle s = (a, s) := rfl

/-- A call is answered by the state, and the rest runs from the state behind it. -/
@[simp] theorem run_op (o : Op) (k : Res o → Prog Op Res α) (s : σ) :
    (op o k).run handle s = (k (handle o s).1).run handle (handle o s).2 := rfl

/-- One call is what the state makes of it. -/
@[simp] theorem run_call (o : Op) (s : σ) :
    (call o : Prog Op Res (Res o)).run handle s = handle o s := rfl

/-- The second of two programs runs from where the first has ended. By induction on the first. -/
@[simp] theorem run_bind (p : Prog Op Res α) (f : α → Prog Op Res β) (s : σ) :
    (p >>= f).run handle s = (f (p.run handle s).1).run handle (p.run handle s).2 := by
  induction p generalizing s with
  | ret a => rfl
  | op o k ih => exact ih (handle o s).1 (handle o s).2

variable {handle}

/-- A state that answers as `answer` does, and goes on to do so after every answer, gives the
value of the program under `answer`. -/
theorem run_eval {answer : (o : Op) → Res o} {R : σ → Prop}
    (hop : ∀ o s, R s → (handle o s).1 = answer o ∧ R (handle o s).2) (p : Prog Op Res α) {s : σ}
    (hs : R s) : (p.run handle s).1 = p.eval answer ∧ R (p.run handle s).2 := by
  induction p generalizing s with
  | ret a => exact ⟨rfl, hs⟩
  | op o k ih =>
    obtain ⟨heq, hR⟩ := hop o s hs
    have hk := ih (handle o s).1 hR
    rw [heq] at hk
    rw [run_op, heq]
    exact hk

end Run

/-! ### Programs over a lower interface -/

/-- Replace every operation by a program over another interface. -/
def interp {Op' : Type} {Res' : Op' → Type} (f : (o : Op) → Prog Op' Res' (Res o)) :
    Prog Op Res α → Prog Op' Res' α
  | ret a => ret a
  | op o k => f o >>= fun r => (k r).interp f

/-- Operations are replaced in each of two programs on its own. -/
theorem interp_bind {Op' : Type} {Res' : Op' → Type} (g : (o : Op) → Prog Op' Res' (Res o))
    (p : Prog Op Res α) (f : α → Prog Op Res β) :
    (p >>= f).interp g = p.interp g >>= fun a => (f a).interp g := by
  induction p with
  | ret a => rfl
  | op o k ih =>
    rw [op_bind, interp, interp, bind_assoc]
    exact congrArg _ (funext ih)

/-- Two replacements, one after the other. -/
theorem interp_interp {Op' Op'' : Type} {Res' : Op' → Type} {Res'' : Op'' → Type}
    (f : (o : Op) → Prog Op' Res' (Res o)) (g : (o : Op') → Prog Op'' Res'' (Res' o))
    (p : Prog Op Res α) : (p.interp f).interp g = p.interp fun o => (f o).interp g := by
  induction p with
  | ret a => rfl
  | op o k ih =>
    rw [interp, interp_bind, interp]
    exact congrArg _ (funext ih)

/-- If the programs that replace the operations do on `lift s` what the operations do on `s`, so
does the whole. By induction on the program, one operation and its replacement at a time. -/
theorem run_interp {Op' τ : Type} {Res' : Op' → Type} {f : (o : Op) → Prog Op' Res' (Res o)}
    {handle : (o : Op) → σ → Res o × σ} {handle' : (o : Op') → τ → Res' o × τ} (lift : σ → τ)
    (hop : ∀ o s, (f o).run handle' (lift s) = ((handle o s).1, lift (handle o s).2))
    (p : Prog Op Res α) (s : σ) :
    (p.interp f).run handle' (lift s) = ((p.run handle s).1, lift (p.run handle s).2) := by
  induction p generalizing s with
  | ret a => rfl
  | op o k ih =>
    rw [interp, run_bind, hop, run_op]
    exact ih _ _

/-! ### Knowledge along a program -/

section Wp
variable {κ : Type} (ok : κ → Op → Prop) (next : κ → (o : Op) → Res o → κ)

/-- From the knowledge `k`, which `next` updates with every answer: every operation that the
program can call is `ok`, and it returns a value for which `Q` holds. -/
def Wp (Q : α → κ → Prop) : Prog Op Res α → κ → Prop
  | ret a, k => Q a k
  | op o p, k => ok k o ∧ ∀ r, (p r).Wp Q (next k o r)

variable {ok next}

/-- The rule of sequence. -/
theorem wp_bind {Q : β → κ → Prop} {p : Prog Op Res α} {f : α → Prog Op Res β} {k : κ}
    (h : p.Wp ok next (fun a k => (f a).Wp ok next Q k) k) : (p >>= f).Wp ok next Q k := by
  induction p generalizing k with
  | ret a => exact h
  | op o p ih => exact ⟨h.1, fun r => ih r (h.2 r)⟩

/-- The rule of consequence. -/
theorem wp_mono {Q R : α → κ → Prop} (hQR : ∀ a k, Q a k → R a k) {p : Prog Op Res α} {k : κ}
    (h : p.Wp ok next Q k) : p.Wp ok next R k := by
  induction p generalizing k with
  | ret a => exact hQR a k h
  | op o p ih => exact ⟨h.1, fun r => ih r (h.2 r)⟩

/-- A program that returns at once keeps its knowledge. -/
@[simp] theorem wp_pure {a : α} {Q : α → κ → Prop} {k : κ} :
    (pure a : Prog Op Res α).Wp ok next Q k ↔ Q a k := Iff.rfl

/-- The rule for a call: it is allowed, and the rest is proved for every answer with what the answer
tells. -/
@[simp] theorem wp_call_bind {o : Op} {f : Res o → Prog Op Res β} {Q : β → κ → Prop} {k : κ} :
    (call o >>= f).Wp ok next Q k ↔ ok k o ∧ ∀ r, (f r).Wp ok next Q (next k o r) := Iff.rfl

/-- Without demands on the operations nothing has to be proved. -/
theorem wp_trivial (next : κ → (o : Op) → Res o → κ) (p : Prog Op Res α) (k : κ) :
    p.Wp (fun _ _ => True) next (fun _ _ => True) k := by
  induction p generalizing k with
  | ret a => trivial
  | op o p ih => exact ⟨trivial, fun r => ih r (next k o r)⟩

/-- The rule of refinement: if `J` relates the knowledge of a program to that of the programs that
replace its operations, what is proved of it holds of the whole. By induction on the program. -/
theorem wp_interp {Op' κ' : Type} {Res' : Op' → Type} {ok' : κ' → Op' → Prop}
    {next' : κ' → (o : Op') → Res' o → κ'} {f : (o : Op) → Prog Op' Res' (Res o)}
    {J : κ → κ' → Prop}
    (hop : ∀ o k l, J k l → ok k o → (f o).Wp ok' next' (fun r l => J (next k o r) l) l)
    {Q : α → κ → Prop} {p : Prog Op Res α} {k : κ} {l : κ'} (hJ : J k l) (h : p.Wp ok next Q k) :
    (p.interp f).Wp ok' next' (fun a l => ∃ k, J k l ∧ Q a k) l := by
  induction p generalizing k l with
  | ret a => exact ⟨k, hJ, h⟩
  | op o p ih =>
    refine wp_bind (wp_mono ?_ (hop o k l hJ h.1))
    intro r l' hJ'
    exact ih r hJ' (h.2 r)

end Wp

end Prog
