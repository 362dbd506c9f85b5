import Distort.Lib.Pool

/-!
Systems whose steps are computed.

What the server leaves open (which call fails, what a lagging reader is shown, which identifier is
drawn) is resolved by a *choice* in `K`; with the choice given, an answer is a function.  A run of a
pool can then be written down as a list of acts and evaluated.

* `Machine.system` — the system of a machine, with the choice hidden;
* `Machine.exec` — runs a list of acts; what it ends in is reachable (`exec_reachable`);
* `Machine.guarded` — the same machine, where a call is answered only if a condition on the caller,
  the call and the state holds;
* `Machine.limited` — the same machine, where the surroundings change the state only if a condition
  on the change and the state holds;
* `Outline.Closed` — an outline of a guarded machine that every answer keeps to, and its rules for programs.
-/

namespace Distort.Lib

variable {C : Type} {R : C → Type} {W J K α : Type}

/-- A system with computed answers. -/
structure Machine (C : Type) (R : C → Type) (W J K α : Type) where
  body : J → Prog C R α
  answer : K → J → (c : C) → W → Option (R c × W)
  /-- What the state records when a program is started. -/
  begin : J → W → Option W := fun _ w => some w
  /-- What the surroundings do to the state. -/
  change : K → W → Option W
  init : W → Prop
  together : J → J → Bool

/-- One thing that happens in a pool: a program is started, the `i`-th one makes its next call, the
surroundings change the state, the `i`-th one is dropped. -/
inductive Act (J K : Type) where
  | start (j : J)
  | run (i : ℕ) (k : K)
  | env (k : K)
  | drop (i : ℕ)

/-- The `i`-th program makes `n` calls, with the same choice for each. -/
def Act.serve {J K : Type} (k : K) (i n : ℕ) : List (Act J K) := List.replicate n (.run i k)

namespace Machine

def system (M : Machine C R W J K α) : System C R W J α where
  body := M.body
  sem j c w r w' := ∃ k, M.answer k j c w = some (r, w')
  start j w w' := M.begin j w = some w'
  env w w' := ∃ k, M.change k w = some w'
  init := M.init
  together i j := M.together i j

/-- Calls are answered only where `G` holds. -/
def guarded (M : Machine C R W J K α) (G : J → C → W → Bool) : Machine C R W J K α where
  body := M.body
  answer k j c w := if G j c w then M.answer k j c w else none
  begin := M.begin
  change := M.change
  init := M.init
  together := M.together

/-- The surroundings change the state only where `E` holds. -/
def limited (M : Machine C R W J K α) (E : K → W → Bool) : Machine C R W J K α where
  body := M.body
  answer := M.answer
  begin := M.begin
  change k w := if E k w then M.change k w else none
  init := M.init
  together := M.together

variable (M : Machine C R W J K α)

def act : Act J K → Pool C R W J α → Option (Pool C R W J α)
  | .start j, ⟨w, ts⟩ =>
    if ts.all fun t => M.together t.1 j && M.together j t.1 then
      (M.begin j w).map fun w' => ⟨w', (j, M.body j) :: ts⟩
    else none
  | .run i k, ⟨w, ts⟩ =>
    match ts[i]? with
    | some (j, .call c f) => (M.answer k j c w).map fun a => ⟨a.2, ts.set i (j, f a.1)⟩
    | _ => none
  | .env k, ⟨w, ts⟩ => (M.change k w).map fun w' => ⟨w', ts⟩
  | .drop i, ⟨w, ts⟩ => if i < ts.length then some ⟨w, ts.eraseIdx i⟩ else none

/-- The pool after a list of acts, if each of them is possible. -/
def exec : List (Act J K) → Pool C R W J α → Option (Pool C R W J α)
  | [], c => some c
  | a :: as, c => (M.act a c).bind (exec as)

theorem sem_guarded {G : J → C → W → Bool} {j : J} {c : C} {w w' : W} {r : R c} :
    (M.guarded G).system.sem j c w r w' ↔ G j c w = true ∧ M.system.sem j c w r w' := by
  simp only [system, guarded]
  by_cases h : G j c w = true <;> simp [h]

theorem env_limited {E : K → W → Bool} {w w' : W} (h : (M.limited E).system.env w w') :
    ∃ k, E k w = true ∧ M.change k w = some w' := by
  obtain ⟨k, hk⟩ := h
  exact ⟨k, Option.ite_none_right_eq_some.1 hk⟩

/-- A condition on the calls only rules runs out. -/
theorem reachable_of_guarded {G : J → C → W → Bool} {c : Pool C R W J α} (h : (M.guarded G).system.Reachable c) :
    M.system.Reachable c := by
  induction h with
  | init hw => exact .init hw
  | step _ hs ih =>
    refine ih.step ?_
    cases hs with
    | start j hj hw => exact .start j hj hw
    | run hr => exact .run (M.sem_guarded.1 hr).2
    | env he => exact .env he
    | drop => exact .drop

@[simp] theorem guarded_true : (M.guarded fun _ _ _ => true) = M := by
  simp [guarded]

variable {M} {c c' : Pool C R W J α}

theorem act_step {a : Act J K} (h : M.act a c = some c') : M.system.Step c c' := by
  obtain ⟨w, ts⟩ := c
  cases a with
  | start j =>
    simp only [act] at h
    split at h
    · rename_i hall
      obtain ⟨w', hw, rfl⟩ := Option.map_eq_some_iff.1 h
      refine .start j (fun t ht => ?_) hw
      simpa [system] using List.all_eq_true.1 hall t ht
    · cases h
  | run i k =>
    simp only [act] at h
    split at h
    · rename_i j c f hi
      obtain ⟨a, ha, rfl⟩ := Option.map_eq_some_iff.1 h
      obtain ⟨hlt, hget⟩ := List.getElem?_eq_some_iff.1 hi
      have hts : ts = ts.take i ++ (j, .call c f) :: ts.drop (i + 1) := by
        rw [← hget, List.getElem_cons_drop, List.take_append_drop]
      rw [List.set_eq_take_cons_drop _ hlt]
      nth_rewrite 1 [hts]
      exact .run ⟨k, ha⟩
    · cases h
  | env k =>
    simp only [act] at h
    obtain ⟨w', hw, rfl⟩ := Option.map_eq_some_iff.1 h
    exact .env ⟨k, hw⟩
  | drop i =>
    simp only [act] at h
    split at h
    · rename_i hlt
      cases h
      have hts : ts = ts.take i ++ ts.get ⟨i, hlt⟩ :: ts.drop (i + 1) := by
        rw [List.get_eq_getElem, List.getElem_cons_drop, List.take_append_drop]
      rw [List.eraseIdx_eq_take_drop_succ]
      nth_rewrite 1 [hts]
      exact .drop
    · cases h

/-- **What a list of acts ends in is reachable.** -/
theorem exec_reachable {as : List (Act J K)} (hc : M.system.Reachable c) (h : M.exec as c = some c') :
    M.system.Reachable c' := by
  induction as generalizing c with
  | nil => cases h; exact hc
  | cons a as ih =>
    obtain ⟨c1, h1, h2⟩ := Option.bind_eq_some_iff.1 h
    exact ih (hc.step (act_step h1)) h2

/-- A test that the result of a list of acts passes is passed by a reachable pool. -/
theorem exists_reachable (as : List (Act J K)) (w : W) (p : Pool C R W J α → Bool) (hw : M.init w)
    (h : (M.exec as ⟨w, []⟩).any p = true) : ∃ c, M.system.Reachable c ∧ p c = true := by
  cases hx : M.exec as ⟨w, []⟩ with
  | none => simp [hx] at h
  | some c => exact ⟨c, exec_reachable (.init hw) hx, by simpa [hx] using h⟩

end Machine

/-! ### Outlines of a guarded machine -/

namespace Outline

variable {M : Machine C R W J K α} {G : J → C → W → Bool} {O : Outline (M.guarded G).system} {j : J} {w : W} {c : C}
  {Q : R c → W → Prop}

/-- One call, with a result that lasts. -/
theorem call (hreq : ∀ w1, O.Rely j w w1 → O.Inv w1 → O.Req j c w1) (hQ : ∀ r w1 w2, Q r w1 → O.Rely j w1 w2 → Q r w2)
    (hstep : ∀ k w1 r w2, O.Rely j w w1 → O.Inv w1 → G j c w1 = true → M.answer k j c w1 = some (r, w2) →
      O.Inv w2 ∧ O.Guar j w1 w2 ∧ Q r w2) : O.Safe j Q (.call c .ret) w := by
  refine .call hreq fun w1 r w2 hr hi hs => ?_
  obtain ⟨hg, k, ha⟩ := M.sem_guarded.1 hs
  obtain ⟨hi2, hguar, hq⟩ := hstep k w1 r w2 hr hi hg ha
  exact ⟨hi2, hguar, Terms.Safe.ret fun w3 hr3 _ => hQ r w2 w3 hq hr3⟩

variable (O) in
/-- A call that meets what it requires keeps the invariant and the guarantee, however it is answered. -/
def Closed : Prop := ∀ {k j c w r w'}, O.Inv w → O.Req j c w → G j c w = true → M.answer k j c w = some (r, w') →
  O.Inv w' ∧ O.Guar j w w'

theorem Closed.call (h : O.Closed) (hreq : ∀ w1, O.Rely j w w1 → O.Inv w1 → O.Req j c w1)
    (hQ : ∀ r w1 w2, Q r w1 → O.Rely j w1 w2 → Q r w2)
    (hstep : ∀ k w1 r w2, O.Rely j w w1 → O.Inv w1 → G j c w1 = true → M.answer k j c w1 = some (r, w2) →
      O.Inv w2 → O.Guar j w1 w2 → Q r w2) : O.Safe j Q (.call c .ret) w := by
  refine Outline.call hreq hQ fun k w1 r w2 hr hi hg ha => ?_
  obtain ⟨hi2, hguar⟩ := h hi (hreq w1 hr hi) hg ha
  exact ⟨hi2, hguar, hstep k w1 r w2 hr hi hg ha hi2 hguar⟩

theorem Closed.op (h : O.Closed) (hreq : ∀ w1, O.Rely j w w1 → O.Inv w1 → O.Req j c w1) : O.Complies j (.call c .ret) w :=
  h.call hreq (fun _ _ _ _ _ => trivial) fun _ _ _ _ _ _ _ _ _ _ => trivial

/-- Any number of calls that keep `I`. -/
theorem Closed.only (h : O.Closed) {β : Type} {p : Prog C R β} {P : C → Prop} {I : W → Prop} (hp : p.Only P) (hw : I w)
    (hI : ∀ w1 w2, I w1 → O.Rely j w1 w2 → I w2) (hreq : ∀ c w1, P c → I w1 → O.Req j c w1)
    (hstep : ∀ k c w1 r w2, P c → O.Inv w1 → I w1 → G j c w1 = true → M.answer k j c w1 = some (r, w2) →
      O.Guar j w1 w2 → I w2) : O.Safe j (fun _ => I) p w := by
  refine .of_only hp hw hI (fun c w1 hc _ => hreq c w1 hc) fun c w1 r w2 hc hi hI1 hs => ?_
  obtain ⟨hg, k, ha⟩ := M.sem_guarded.1 hs
  obtain ⟨hi2, hguar⟩ := h hi (hreq c w1 hc hI1) hg ha
  exact ⟨hi2, hguar, hstep k c w1 r w2 hc hi hI1 hg ha hguar⟩

/-- Any number of calls that meet what they require in any state. -/
theorem Closed.complies (h : O.Closed) {β : Type} {p : Prog C R β} {P : C → Prop} (hp : p.Only P)
    (hreq : ∀ c w1, P c → O.Req j c w1) : O.Complies j p w :=
  h.only hp trivial (fun _ _ _ _ => trivial) (fun c w1 hc _ => hreq c w1 hc) fun _ _ _ _ _ _ _ _ _ _ _ => trivial

end Outline

end Distort.Lib
