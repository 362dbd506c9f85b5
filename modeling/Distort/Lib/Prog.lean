import Mathlib.Logic.Relation
import Mathlib.Data.List.Basic

/-!
Client programs: a computation that talks to the outside only through calls.

A program either ends with a value or makes one call and goes on with the answer, whatever the
answer is.  What a call does is not said here: a *server* is a relation between the state before,
the answer and the state after, and the same program is run against different servers.

* `Prog C R α` — programs with calls in `C`, the answers of `c` in `R c`, and results in `α`;
* `Only P p` — every call that `p` can make meets `P`;
* `Ends Q p` — every result that `p` can have meets `Q`;
* `Trace p es` — `p` can make the calls and get the answers of `es`, and possibly go on.
-/

namespace Distort.Lib

/-- A client program over the calls `C`, where the call `c` is answered in `R c`. -/
inductive Prog (C : Type) (R : C → Type) (α : Type) : Type where
  | ret (a : α)
  | call (c : C) (k : R c → Prog C R α)

namespace Prog

variable {C : Type} {R : C → Type} {α β γ : Type}

protected def bind : Prog C R α → (α → Prog C R β) → Prog C R β
  | .ret a, f => f a
  | .call c k, f => .call c fun r => (k r).bind f

instance : Monad (Prog C R) where
  pure := .ret
  bind := Prog.bind

/-- The program that makes one call and returns its answer. -/
def op (c : C) : Prog C R (R c) := .call c .ret

/-- Goes on with the value, or handles the error: `if err != nil { … }`. -/
def check {ε : Type} (p : Prog C R (Except ε α)) (onErr : ε → Prog C R β) (k : α → Prog C R β) : Prog C R β :=
  p >>= fun r => match r with
    | .error e => onErr e
    | .ok a => k a

@[simp] theorem pure_eq (a : α) : (pure a : Prog C R α) = .ret a := rfl

@[simp] theorem ret_bind (a : α) (f : α → Prog C R β) : (Prog.ret a >>= f) = f a := rfl

@[simp] theorem call_bind (c : C) (k : R c → Prog C R α) (f : α → Prog C R β) :
    (Prog.call c k >>= f) = .call c fun r => k r >>= f := rfl

@[simp] theorem op_bind (c : C) (f : R c → Prog C R β) : ((op c : Prog C R (R c)) >>= f) = .call c f := rfl

theorem bind_ret (p : Prog C R α) : (p >>= Prog.ret) = p := by
  induction p with
  | ret a => rfl
  | call c k ih => simp only [call_bind, ih]

theorem bind_assoc (p : Prog C R α) (f : α → Prog C R β) (g : β → Prog C R γ) :
    (p >>= f) >>= g = p >>= fun a => f a >>= g := by
  induction p with
  | ret a => rfl
  | call c k ih => simp only [call_bind, ih]

/-! ### The calls of a program -/

/-- Every call that the program can make, whatever the answers, meets `P`. -/
def Only (P : C → Prop) : Prog C R α → Prop
  | .ret _ => True
  | .call c k => P c ∧ ∀ r, Only P (k r)

variable {P : C → Prop}

theorem Only.bind {p : Prog C R α} {f : α → Prog C R β} (hp : Only P p) (hf : ∀ a, Only P (f a)) :
    Only P (p >>= f) := by
  induction p with
  | ret a => exact hf a
  | call c k ih => exact ⟨hp.1, fun r => ih r (hp.2 r)⟩

theorem Only.check {ε : Type} {p : Prog C R (Except ε α)} {f : ε → Prog C R β} {k : α → Prog C R β}
    (hp : Only P p) (hf : ∀ e, Only P (f e)) (hk : ∀ a, Only P (k a)) : Only P (p.check f k) := by
  refine hp.bind fun r => ?_
  cases r with
  | error e => exact hf e
  | ok a => exact hk a

/-- A first part that ends the program when it fails. -/
theorem Only.next {ε : Type} {p : Prog C R (Except ε α)} {e : ε → β} {k : α → Prog C R β} (hp : Only P p)
    (hk : ∀ a, Only P (k a)) : Only P (p.check (fun x => .ret (e x)) k) := hp.check (fun _ => trivial) hk

theorem Only.mono {Q : C → Prop} {p : Prog C R α} (hp : Only P p) (h : ∀ c, P c → Q c) : Only Q p := by
  induction p with
  | ret a => trivial
  | call c k ih => exact ⟨h c hp.1, fun r => ih r (hp.2 r)⟩

/-! ### The results of a program -/

/-- Every result that the program can have, whatever the answers, meets `Q`. -/
def Ends (Q : α → Prop) : Prog C R α → Prop
  | .ret a => Q a
  | .call _ k => ∀ r, Ends Q (k r)

variable {Q : α → Prop}

/-- The results of the last part count. -/
theorem Ends.bind {p : Prog C R β} {f : β → Prog C R α} (hf : ∀ b, Ends Q (f b)) : Ends Q (p >>= f) := by
  induction p with
  | ret b => exact hf b
  | call c k ih => exact fun r => ih r

theorem Ends.check {ε : Type} {p : Prog C R (Except ε β)} {f : ε → Prog C R α} {k : β → Prog C R α}
    (hf : ∀ e, Ends Q (f e)) (hk : ∀ b, Ends Q (k b)) : Ends Q (p.check f k) := by
  refine Ends.bind fun r => ?_
  cases r with
  | error e => exact hf e
  | ok b => exact hk b

/-! ### Traces -/

/-- A call together with its answer. -/
abbrev Event (C : Type) (R : C → Type) : Type := (c : C) × R c

/-- The program can make the calls of the list, in this order, and get these answers.  A trace may
stop anywhere: a crash cuts it between two calls. -/
inductive Trace : Prog C R α → List (Event C R) → Prop
  | stop (p : Prog C R α) : Trace p []
  | step {c : C} {k : R c → Prog C R α} {r : R c} {es : List (Event C R)} :
      Trace (k r) es → Trace (.call c k) (⟨c, r⟩ :: es)

end Prog

end Distort.Lib
