import Distort.Lib.Prog

/-!
Where a program gets with given calls and answers.

* `Leads p es q` — after the calls and answers of `es`, what is left of `p` is `q`; a run to the end leads to `.ret a`;
* `Leads.bind_cases` — a run of a sequence is one of its first part, or a whole one followed by one of the rest;
* `Under A Q p` — `p` ends in `Q` where all answers meet `A`;
* `Heeds F Q p` — `p` ends in `Q` after an answer that meets `F`;
* `Arrives N M S p` — `p` makes calls of `M` only, or comes to a program of `S` by calls of `N`.
-/

namespace Distort.Lib.Prog

variable {C : Type} {R : C → Type} {α β : Type}

/-- What is left after the calls and answers of the list. -/
inductive Leads : Prog C R α → List (Event C R) → Prog C R α → Prop
  | refl (p : Prog C R α) : Leads p [] p
  | step {c : C} {k : R c → Prog C R α} {r : R c} {es : List (Event C R)} {q : Prog C R α} :
      Leads (k r) es q → Leads (.call c k) (⟨c, r⟩ :: es) q

variable {p q : Prog C R α} {f : α → Prog C R β} {es es' : List (Event C R)} {a : α}

theorem Leads.nil_inv (h : Leads p [] q) : q = p := by
  cases h
  rfl

theorem Leads.ret_inv (h : Leads (.ret a) es q) : es = [] ∧ q = .ret a := by
  cases h
  exact ⟨rfl, rfl⟩

theorem Leads.call_inv {c : C} {k : R c → Prog C R α} (h : Leads (.call c k) es q) :
    es = [] ∧ q = .call c k ∨ ∃ r es', es = ⟨c, r⟩ :: es' ∧ Leads (k r) es' q := by
  cases h with
  | refl => exact .inl ⟨rfl, rfl⟩
  | step h => exact .inr ⟨_, _, rfl, h⟩

theorem Leads.trans {q' : Prog C R α} (h : Leads p es q) (h' : Leads q es' q') : Leads p (es ++ es') q' := by
  induction h with
  | refl p => exact h'
  | step _ ih => exact .step (ih h')

theorem Leads.bind {q : Prog C R β} (h : Leads p es (.ret a)) (h' : Leads (f a) es' q) : Leads (p >>= f) (es ++ es') q := by
  induction es generalizing p with
  | nil =>
    cases h
    exact h'
  | cons e es ih =>
    cases h with
    | step h => exact .step (ih h)

theorem Leads.bind_cases {q : Prog C R β} (h : Leads (p >>= f) es q) : (∃ p', Leads p es p' ∧ q = p' >>= f) ∨
    ∃ a es1 es2, es = es1 ++ es2 ∧ Leads p es1 (.ret a) ∧ Leads (f a) es2 q := by
  induction es generalizing p with
  | nil => exact .inl ⟨p, .refl p, h.nil_inv⟩
  | cons e es ih =>
    cases p with
    | ret a => exact .inr ⟨a, [], e :: es, rfl, .refl _, h⟩
    | call c k =>
      cases h with
      | step h =>
        rcases ih h with ⟨p', hp', rfl⟩ | ⟨a, es1, es2, rfl, hp, hf⟩
        · exact .inl ⟨p', .step hp', rfl⟩
        · exact .inr ⟨a, ⟨c, _⟩ :: es1, es2, rfl, .step hp, hf⟩

/-- Only calls that the program can make are made. -/
theorem Leads.only {P : C → Prop} (h : Leads p es q) (hp : p.Only P) : ∀ e ∈ es, P e.1 := by
  induction h with
  | refl p => simp
  | step _ ih =>
    intro e he
    rcases List.mem_cons.1 he with rfl | he
    · exact hp.1
    · exact ih (hp.2 _) e he

/-! ### Answers that are known -/

/-- Every result meets `Q` where every answer meets `A`. -/
def Under (A : (c : C) → R c → Prop) (Q : α → Prop) : Prog C R α → Prop
  | .ret a => Q a
  | .call c k => ∀ r, A c r → (k r).Under A Q

variable {A F : (c : C) → R c → Prop} {Q : α → Prop} {K : β → Prop}
  {ε : Type} {m : Prog C R (Except ε α)} {g : ε → Prog C R β} {k : α → Prog C R β}

theorem Under.bind (h : p.Under A fun a => (f a).Under A K) : (p >>= f).Under A K := by
  induction p with
  | ret a => exact h
  | call c k ih => exact fun r hr => ih r (h r hr)

theorem Under.check (h : m.Under A fun r => match r with
      | .error e => (g e).Under A K
      | .ok a => (k a).Under A K) : (m.check g k).Under A K := by
  refine Under.bind ?_
  induction m with
  | ret r => cases r <;> exact h
  | call c k ih => exact fun r hr => ih r (h r hr)

theorem Under.mono {Q' : α → Prop} (h : p.Under A Q) (hQ : ∀ a, Q a → Q' a) : p.Under A Q' := by
  induction p with
  | ret a => exact hQ a h
  | call c k ih => exact fun r hr => ih r (h r hr)

theorem Leads.under (h : Leads p es (.ret a)) (hes : ∀ e ∈ es, A e.1 e.2) (hp : p.Under A Q) : Q a := by
  induction es generalizing p with
  | nil =>
    cases h
    exact hp
  | cons e es ih =>
    cases h with
    | step h =>
      rw [List.forall_mem_cons] at hes
      exact ih h hes.2 (hp _ hes.1)

/-! ### Answers that count -/

/-- Every result after an answer that meets `F` meets `Q`. -/
def Heeds (F : (c : C) → R c → Prop) (Q : α → Prop) : Prog C R α → Prop
  | .ret _ => True
  | .call c k => ∀ r, (F c r → (k r).Ends Q) ∧ (k r).Heeds F Q

/-- The results of the first part after such an answer lead to those of the whole. -/
theorem Heeds.bind (hp : p.Heeds F Q) (hQ : ∀ a, Q a → (f a).Ends K) (hf : ∀ a, (f a).Heeds F K) : (p >>= f).Heeds F K := by
  have hends : ∀ p : Prog C R α, p.Ends Q → (p >>= f).Ends K := by
    intro p hp
    induction p with
    | ret a => exact hQ a hp
    | call c k ih => exact fun r => ih r (hp r)
  induction p with
  | ret a => exact hf a
  | call c k ih => exact fun r => ⟨fun hr => hends _ ((hp r).1 hr), ih r (hp r).2⟩

/-- A first part that answers with an error. -/
theorem Heeds.check (hm : m.Heeds F fun r => r.isOk = false) (hg : ∀ e, (g e).Ends K) (hg' : ∀ e, (g e).Heeds F K)
    (hk : ∀ a, (k a).Heeds F K) : (m.check g k).Heeds F K := by
  refine Heeds.bind hm (fun r hr => ?_) fun r => ?_
  · cases r with
    | error e => exact hg e
    | ok a => cases hr
  · cases r with
    | error e => exact hg' e
    | ok a => exact hk a

theorem Leads.ends (h : Leads p es (.ret a)) (hp : p.Ends Q) : Q a := by
  induction es generalizing p with
  | nil =>
    cases h
    exact hp
  | cons e es ih =>
    cases h with
    | step h => exact ih h (hp _)

theorem Leads.heeds (h : Leads p es (.ret a)) (hp : p.Heeds F Q) (hF : ∃ e ∈ es, F e.1 e.2) : Q a := by
  induction es generalizing p with
  | nil =>
    obtain ⟨e, he, -⟩ := hF
    cases he
  | cons e es ih =>
    cases h with
    | step h =>
      rw [List.exists_mem_cons_iff] at hF
      rcases hF with he | hes
      · exact h.ends ((hp _).1 he)
      · exact ih h (hp _).2 hes

/-! ### Arrival -/

/-- The program makes calls of `M` only, or comes to one of `S` by calls of `N`. -/
inductive Arrives (N M : C → Prop) (S : Prog C R α → Prop) : Prog C R α → Prop
  | only {p : Prog C R α} : p.Only M → Arrives N M S p
  | here {p : Prog C R α} : S p → Arrives N M S p
  | step {c : C} {k : R c → Prog C R α} : N c → (∀ r, Arrives N M S (k r)) → Arrives N M S (.call c k)

variable {N M : C → Prop} {S : Prog C R β → Prop}

theorem Arrives.bind (hp : p.Only N) (hf : ∀ a, Arrives N M S (f a)) : Arrives N M S (p >>= f) := by
  induction p with
  | ret a => exact hf a
  | call c k ih => exact .step hp.1 fun r => ih r (hp.2 r)

theorem Arrives.check (hm : m.Only N) (hg : ∀ e, (g e).Only M) (hk : ∀ a, Arrives N M S (k a)) :
    Arrives N M S (m.check g k) := by
  refine Arrives.bind hm fun r => ?_
  cases r with
  | error e => exact .only (hg e)
  | ok a => exact hk a

theorem Arrives.leads {p q : Prog C R β} (hp : Arrives N M S p) (hN : ∀ c, N c → M c) (h : Leads p es q) :
    (∀ e ∈ es, M e.1) ∨ ∃ es1 es2 s, es = es1 ++ es2 ∧ (∀ e ∈ es1, N e.1) ∧ S s ∧ Leads p es1 s ∧ Leads s es2 q := by
  induction hp generalizing es with
  | only hp => exact .inl (h.only hp)
  | here hp => exact .inr ⟨[], es, _, rfl, by simp, hp, .refl _, h⟩
  | step hc hk ih =>
    cases h with
    | refl => exact .inl (by simp)
    | @step _ _ r _ _ h =>
      rcases ih r h with hall | ⟨es1, es2, s, rfl, hes1, hs, hleads, hrest⟩
      · exact .inl (List.forall_mem_cons.2 ⟨hN _ hc, hall⟩)
      · exact .inr ⟨_, es2, s, rfl, List.forall_mem_cons.2 ⟨hc, hes1⟩, hs, .step hleads, hrest⟩

/-! ### Evaluation -/

/-- The calls under given answers, as far as they go. -/
def follow (answers : ℕ → (c : C) → Option (R c)) : ℕ → ℕ → Prog C R α → List (Event C R)
  | fuel + 1, i, .call c k =>
    match answers i c with
    | some r => ⟨c, r⟩ :: follow answers fuel (i + 1) (k r)
    | none => []
  | _, _, _ => []

/-- What is left then. -/
def leftover (answers : ℕ → (c : C) → Option (R c)) : ℕ → ℕ → Prog C R α → Prog C R α
  | fuel + 1, i, .call c k =>
    match answers i c with
    | some r => leftover answers fuel (i + 1) (k r)
    | none => .call c k
  | _, _, p => p

theorem leads_follow (answers : ℕ → (c : C) → Option (R c)) (fuel i : ℕ) (p : Prog C R α) :
    Leads p (p.follow answers fuel i) (p.leftover answers fuel i) := by
  induction fuel generalizing i p with
  | zero => cases p <;> exact .refl _
  | succ fuel ih =>
    cases p with
    | ret a => exact .refl _
    | call c k =>
      simp only [follow, leftover]
      split
      · exact .step (ih _ _)
      · exact .refl _

theorem mem_follow {answers : ℕ → (c : C) → Option (R c)} {fuel i : ℕ} {e : Event C R}
    (he : e ∈ p.follow answers fuel i) : ∃ j, answers j e.1 = some e.2 := by
  induction fuel generalizing i p with
  | zero => cases p <;> cases he
  | succ fuel ih =>
    cases p with
    | ret a => cases he
    | call c k =>
      simp only [follow] at he
      split at he
      · rename_i r hr
        rcases List.mem_cons.1 he with rfl | he
        · exact ⟨i, hr⟩
        · exact ih he
      · cases he

theorem Leads.trace (h : Leads p es q) : Trace p es := by
  induction h with
  | refl p => exact .stop p
  | step _ ih => exact .step ih

theorem trace_follow (answers : ℕ → (c : C) → Option (R c)) (fuel i : ℕ) (p : Prog C R α) :
    Trace p (p.follow answers fuel i) :=
  (leads_follow answers fuel i p).trace

/-- The result of a program that has ended. -/
def result : Prog C R α → Option α
  | .ret a => some a
  | .call _ _ => none

theorem eq_ret (h : p.result = some a) : p = .ret a := by
  cases p with
  | ret b => rw [Option.some.inj h]
  | call c k => cases h

end Distort.Lib.Prog
