import NucleoH743.Lib.Choice

/-!
# `Lib.Plan`: steps up to the first that fails

A plan is a list of steps, each of them a program with a result that is good or not.
`Prog.attempt` does the steps in their order and stops at the first result that is not good. Its
value is the part of the plan that is left: nothing, or the step that has failed and the steps
behind it, which were not tried.

The value of a plan is what is left of it, and not a result code, so that two things are said at
once: whether all has been done, and how far it has come. The first step that fails is the head of
what is left.

- `attempt_append`: a plan in two parts.
- `always_attempt_cons`, `always_attempt_append`: the rules for the first step and for the parts.
-/

set_option autoImplicit false

namespace Prog

variable {Op : Type} {Res : Op → Type} {S α β σ χ : Type}

/-- Do the steps of a plan up to the first that fails, and tell what is left. -/
def attempt (body : S → Prog Op Res α) (good : α → Bool) : List S → Prog Op Res (List S)
  | [] => ret []
  | s :: ss => do
    let a ← body s
    if good a then attempt body good ss else ret (s :: ss)

section Equations
variable (body : S → Prog Op Res α) (good : α → Bool)

/-- With no steps nothing is done. -/
@[simp] theorem attempt_nil : attempt body good [] = ret [] := rfl

/-- The first step, with what comes after the plan. -/
theorem attempt_cons_bind (s : S) (ss : List S) (f : List S → Prog Op Res β) :
    (attempt body good (s :: ss) >>= f) =
      body s >>= fun a => if good a then attempt body good ss >>= f else f (s :: ss) := by
  rw [attempt, bind_assoc]
  congr 1
  funext a
  cases good a <;> rfl

/-- Steps in two parts: the second part is attempted iff nothing is left of the first. By induction
on the first. -/
theorem attempt_append (l r : List S) :
    attempt body good (l ++ r) = attempt body good l >>= fun left =>
      if left = [] then attempt body good r else ret (left ++ r) := by
  induction l with
  | nil => rfl
  | cons s l ih =>
    rw [attempt_cons_bind, List.cons_append, attempt, ih]
    congr 1

end Equations

section Rules
variable {handle : χ → (o : Op) → σ → Res o × σ} {ok : χ → Prop} {body : S → Prog Op Res α}
  {good : α → Bool} {Q : List S → σ → Prop} {st : σ}

/-- The first step goes well, or the whole plan is left. -/
theorem always_attempt_cons {s : S} {ss : List S} {P : α → σ → Prop}
    (hbody : (body s).Always handle ok P st)
    (hgood : ∀ a st', P a st' → good a = true → (attempt body good ss).Always handle ok Q st')
    (hfail : ∀ a st', P a st' → good a = false → Q (s :: ss) st') :
    (attempt body good (s :: ss)).Always handle ok Q st := by
  refine always_seq hbody fun a st' h => ?_
  cases hg : good a with
  | true => exact hgood a st' h hg
  | false => exact hfail a st' h hg

/-- The first part goes well, or the second is left with what is left of the first. -/
theorem always_attempt_append {l r : List S} {P : List S → σ → Prop}
    (hl : (attempt body good l).Always handle ok P st)
    (hgood : ∀ st', P [] st' → (attempt body good r).Always handle ok Q st')
    (hfail : ∀ left st', left ≠ [] → P left st' → Q (left ++ r) st') :
    (attempt body good (l ++ r)).Always handle ok Q st := by
  rw [attempt_append]
  refine always_seq hl fun left st' h => ?_
  by_cases hleft : left = []
  · subst hleft
    exact hgood st' h
  · rw [if_neg hleft]
    exact hfail left st' hleft h

end Rules

end Prog
