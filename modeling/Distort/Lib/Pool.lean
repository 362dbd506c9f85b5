import Distort.Lib.Prog

/-!
Programs that run side by side against one server.

A *pool* holds the state of the server and the programs in flight.  Any of them may make its next
call at any time, new ones may be started, one may be dropped in the middle (its process died, or
it ended and is forgotten), and the surroundings may change the state on their own.

Properties of all reachable pools are proved by rely and guarantee.  `Safe` says of one program
that, whatever the others do within `Rely`, each of its calls meets `Req`, changes the state within
`Guar` and keeps the invariant, and its result meets `Post`.  If what every program may do is
within what the others rely on (`Outline`), all of them are safe together.
-/

namespace Distort.Lib

variable {C : Type} {R : C → Type} {W J α β : Type}

/-! ### Pools -/

/-- What is run: the program of each job, how the server answers, what the state records when a
program is started, what the surroundings do, where the state starts, and which jobs may be in
flight at the same time. -/
structure System (C : Type) (R : C → Type) (W J α : Type) where
  body : J → Prog C R α
  sem : J → (c : C) → W → R c → W → Prop
  start : J → W → W → Prop
  env : W → W → Prop
  init : W → Prop
  together : J → J → Prop

/-- The state of the server and the programs in flight, each with its job. -/
structure Pool (C : Type) (R : C → Type) (W J α : Type) where
  world : W
  threads : List (J × Prog C R α)

/-- One step of a pool. -/
inductive System.Step (S : System C R W J α) : Pool C R W J α → Pool C R W J α → Prop
  | start {w w' : W} {ts : List (J × Prog C R α)} (j : J)
      (h : ∀ t ∈ ts, S.together t.1 j ∧ S.together j t.1) (hw : S.start j w w') :
      Step S ⟨w, ts⟩ ⟨w', (j, S.body j) :: ts⟩
  | run {w w' : W} {l₁ l₂ : List (J × Prog C R α)} {j : J} {c : C} {k : R c → Prog C R α} {r : R c}
      (h : S.sem j c w r w') : Step S ⟨w, l₁ ++ (j, .call c k) :: l₂⟩ ⟨w', l₁ ++ (j, k r) :: l₂⟩
  | env {w w' : W} {ts : List (J × Prog C R α)} (h : S.env w w') : Step S ⟨w, ts⟩ ⟨w', ts⟩
  | drop {w : W} {l₁ l₂ : List (J × Prog C R α)} {t : J × Prog C R α} :
      Step S ⟨w, l₁ ++ t :: l₂⟩ ⟨w, l₁ ++ l₂⟩

/-- The pools that can be reached from an initial state with nothing in flight. -/
inductive System.Reachable (S : System C R W J α) : Pool C R W J α → Prop
  | init {w : W} (h : S.init w) : Reachable S ⟨w, []⟩
  | step {c c' : Pool C R W J α} (hc : Reachable S c) (h : S.Step c c') : Reachable S c'

/-! ### One program under interference -/

/-- The conditions under which one program is judged. -/
structure Terms (C : Type) (R : C → Type) (W : Type) where
  sem : (c : C) → W → R c → W → Prop
  Inv : W → Prop
  /-- What the others may do to the state between two calls. -/
  Rely : W → W → Prop
  /-- What a call of this program may do to the state. -/
  Guar : W → W → Prop
  /-- What must hold when this program makes the call. -/
  Req : C → W → Prop
  rely_refl : ∀ w, Rely w w
  rely_trans : ∀ {a b c}, Rely a b → Rely b c → Rely a c

variable {w : W}

namespace Terms

variable (T : Terms C R W)

/-- The program keeps the terms from the state `w` on, and its result meets `Post`. -/
def Safe (Post : α → W → Prop) : Prog C R α → W → Prop
  | .ret a, w => ∀ w₁, T.Rely w w₁ → T.Inv w₁ → Post a w₁
  | .call c k, w => ∀ w₁, T.Rely w w₁ → T.Inv w₁ → T.Req c w₁ ∧
      ∀ r w₂, T.sem c w₁ r w₂ → T.Inv w₂ ∧ T.Guar w₁ w₂ ∧ Safe Post (k r) w₂

/-- Nothing is said about the result. -/
abbrev Complies : Prog C R α → W → Prop := T.Safe fun _ _ => True

variable {T} {Post : α → W → Prop}

theorem Safe.mono {p : Prog C R α} {w' : W} (h : T.Safe Post p w) (hr : T.Rely w w') : T.Safe Post p w' := by
  cases p with
  | ret a => exact fun w1 h1 => h w1 (T.rely_trans hr h1)
  | call c k => exact fun w1 h1 => h w1 (T.rely_trans hr h1)

theorem Safe.conseq {Post' : α → W → Prop} {p : Prog C R α} (h : T.Safe Post p w)
    (hp : ∀ a w1, T.Inv w1 → Post a w1 → Post' a w1) : T.Safe Post' p w := by
  induction p generalizing w with
  | ret a => exact fun w1 h1 hi => hp a w1 hi (h w1 h1 hi)
  | call c k ih =>
    intro w1 h1 hi
    obtain ⟨hq, hs⟩ := h w1 h1 hi
    refine ⟨hq, fun r w2 hr => ?_⟩
    obtain ⟨hi2, hg, hk⟩ := hs r w2 hr
    exact ⟨hi2, hg, ih r hk⟩

/-- Sequencing: the rest is safe from wherever the first part ends. -/
theorem Safe.bind {p : Prog C R β} {f : β → Prog C R α}
    (h : T.Safe (fun b w1 => T.Safe Post (f b) w1) p w) : T.Safe Post (p >>= f) w := by
  induction p generalizing w with
  | ret b =>
    -- the state may still move before the first call of `f b`, but the rest is safe from there
    simp only [Prog.ret_bind]
    cases hf : f b with
    | ret a =>
      intro w1 h1 hi
      have := h w1 h1 hi
      simp only [hf] at this
      exact this w1 (T.rely_refl w1) hi
    | call c k =>
      intro w1 h1 hi
      have := h w1 h1 hi
      simp only [hf] at this
      exact this w1 (T.rely_refl w1) hi
  | call c k ih =>
    intro w1 h1 hi
    obtain ⟨hq, hs⟩ := h w1 h1 hi
    refine ⟨hq, fun r w2 hr => ?_⟩
    obtain ⟨hi2, hg, hk⟩ := hs r w2 hr
    exact ⟨hi2, hg, ih r hk⟩

/-- Goes on with the value, or handles the error. -/
theorem Safe.check {ε : Type} {p : Prog C R (Except ε β)} {f : ε → Prog C R α} {k : β → Prog C R α}
    (h : T.Safe (fun r w1 => match r with
      | .error e => T.Safe Post (f e) w1
      | .ok b => T.Safe Post (k b) w1) p w) : T.Safe Post (p.check f k) w := by
  refine Safe.bind (h.conseq fun r w1 _ hr => ?_)
  cases r with
  | error e => exact hr
  | ok b => exact hr

/-- What follows the first part, whether it fails or not. -/
theorem Safe.andThen {ε : Type} {p : Prog C R (Except ε β)} {f : ε → Prog C R α} {k : β → Prog C R α}
    {Q : Except ε β → W → Prop} (h : T.Safe Q p w) (herror : ∀ e w1, Q (.error e) w1 → T.Safe Post (f e) w1)
    (hok : ∀ b w1, Q (.ok b) w1 → T.Safe Post (k b) w1) : T.Safe Post (p.check f k) w := by
  refine .check (h.conseq fun r w1 _ hr => ?_)
  cases r with
  | error e => exact herror e w1 hr
  | ok b => exact hok b w1 hr

/-- What follows the first part; if that fails, the program ends. -/
theorem Safe.next {ε : Type} {p : Prog C R (Except ε β)} {e : ε → α} {k : β → Prog C R α} {Q : Except ε β → W → Prop}
    (h : T.Safe Q p w) (hok : ∀ b w1, Q (.ok b) w1 → T.Complies (k b) w1) : T.Complies (p.check (fun x => .ret (e x)) k) w :=
  h.andThen (fun _ _ _ _ _ _ => trivial) hok

/-- The result of a program that has ended. -/
theorem Safe.ret {a : α} (h : ∀ w1, T.Rely w w1 → T.Inv w1 → Post a w1) : T.Safe Post (.ret a) w := h

theorem Safe.ended {a : α} : T.Complies (.ret a) w := fun _ _ _ => trivial

theorem Safe.keep {I : W → Prop} {a : α} (hw : I w) (stable : ∀ w1 w2, I w1 → T.Rely w1 w2 → I w2) :
    T.Safe (fun _ => I) (.ret a) w := fun w1 hr _ => stable w w1 hw hr

/-- A result that lasts. -/
theorem Safe.stay {a : α} (h : Post a w) (stable : ∀ w1 w2, Post a w1 → T.Rely w1 w2 → Post a w2) :
    T.Safe Post (.ret a) w := fun w1 hr _ => stable w w1 h hr

/-- One call. -/
theorem Safe.call {c : C} {k : R c → Prog C R α} (req : ∀ w1, T.Rely w w1 → T.Inv w1 → T.Req c w1)
    (step : ∀ w1 r w2, T.Rely w w1 → T.Inv w1 → T.sem c w1 r w2 →
      T.Inv w2 ∧ T.Guar w1 w2 ∧ T.Safe Post (k r) w2) : T.Safe Post (.call c k) w :=
  fun w1 hr hi => ⟨req w1 hr hi, fun r w2 hs => step w1 r w2 hr hi hs⟩

/-- A program all of whose calls keep the terms, and `I`, by themselves. -/
theorem Safe.of_only {P : C → Prop} {I : W → Prop} {p : Prog C R α} (hp : p.Only P) (hw : I w)
    (stable : ∀ w1 w2, I w1 → T.Rely w1 w2 → I w2) (req : ∀ c w1, P c → T.Inv w1 → I w1 → T.Req c w1)
    (step : ∀ c w1 r w2, P c → T.Inv w1 → I w1 → T.sem c w1 r w2 → T.Inv w2 ∧ T.Guar w1 w2 ∧ I w2) :
    T.Safe (fun _ => I) p w := by
  induction p generalizing w with
  | ret a => exact fun w1 hr _ => stable w w1 hw hr
  | call c k ih =>
    intro w1 hr hi
    have hw1 := stable w w1 hw hr
    refine ⟨req c w1 hp.1 hi hw1, fun r w2 hs => ?_⟩
    obtain ⟨hi2, hg, hw2⟩ := step c w1 r w2 hp.1 hi hw1 hs
    exact ⟨hi2, hg, ih r (hp.2 r) hw2⟩

/-- The state since the program was called, if the program moves it only as others may. -/
theorem Safe.since {p : Prog C R α} (hguar : ∀ {w1 w2}, T.Guar w1 w2 → T.Rely w1 w2) (h : T.Safe Post p w) :
    T.Safe (fun a w1 => Post a w1 ∧ T.Rely w w1) p w := by
  suffices hlater : ∀ w0, T.Rely w0 w → T.Safe (fun a w1 => Post a w1 ∧ T.Rely w0 w1) p w from hlater w (T.rely_refl w)
  induction p generalizing w with
  | ret a => exact fun w0 h0 w1 hr hi => ⟨h w1 hr hi, T.rely_trans h0 hr⟩
  | call c k ih =>
    intro w0 h0 w1 hr hi
    obtain ⟨hq, hs⟩ := h w1 hr hi
    refine ⟨hq, fun r w2 hr2 => ?_⟩
    obtain ⟨hi2, hg, hk⟩ := hs r w2 hr2
    exact ⟨hi2, hg, ih r hk w0 (T.rely_trans h0 (T.rely_trans hr (hguar hg)))⟩

/-- What is true of every result anyway. -/
theorem Safe.ends {Q : α → Prop} {p : Prog C R α} (h : T.Safe Post p w) (hp : p.Ends Q) :
    T.Safe (fun a w1 => Post a w1 ∧ Q a) p w := by
  induction p generalizing w with
  | ret a => exact fun w1 hr hi => ⟨h w1 hr hi, hp⟩
  | call c k ih =>
    intro w1 hr hi
    obtain ⟨hq, hs⟩ := h w1 hr hi
    refine ⟨hq, fun r w2 hr2 => ?_⟩
    obtain ⟨hi2, hg, hk⟩ := hs r w2 hr2
    exact ⟨hi2, hg, ih r hk (hp r)⟩

end Terms

/-! ### All of them together -/

/-- A proof outline of a system: the terms of every job, with matching relies and guarantees. -/
structure Outline (S : System C R W J α) where
  Inv : W → Prop
  Rely : J → W → W → Prop
  Guar : J → W → W → Prop
  Req : J → C → W → Prop
  Post : J → α → W → Prop
  rely_refl : ∀ j w, Rely j w w
  rely_trans : ∀ j {a b c}, Rely j a b → Rely j b c → Rely j a c
  init : ∀ w, S.init w → Inv w
  /-- A start leaves the state as it is, unless the system says otherwise. -/
  start : ∀ j w w', Inv w → S.start j w w' → w' = w ∨ Inv w' ∧ ∀ i, Rely i w w' := by
    exact fun _ _ _ _ h => .inl (Option.some.inj h).symm
  env : ∀ w w', Inv w → S.env w w' → Inv w' ∧ ∀ j, Rely j w w'
  guar : ∀ i j w w', S.together i j → Inv w → Inv w' → Guar i w w' → Rely j w w'

namespace Outline

variable {S : System C R W J α} (O : Outline S)

/-- The terms of the job `j`. -/
def terms (j : J) : Terms C R W where
  sem := S.sem j
  Inv := O.Inv
  Rely := O.Rely j
  Guar := O.Guar j
  Req := O.Req j
  rely_refl := O.rely_refl j
  rely_trans := O.rely_trans j

abbrev Safe {β : Type} (j : J) (Post : β → W → Prop) : Prog C R β → W → Prop := (O.terms j).Safe Post

abbrev Complies {β : Type} (j : J) : Prog C R β → W → Prop := (O.terms j).Complies

/-- What is kept by every step of a pool. -/
structure Kept (c : Pool C R W J α) : Prop where
  inv : O.Inv c.world
  safe : ∀ t ∈ c.threads, O.Safe t.1 (O.Post t.1) t.2 c.world
  apart : c.threads.Pairwise fun s t => S.together s.1 t.1 ∧ S.together t.1 s.1

variable {O}

theorem Kept.step (hb : ∀ j w w', O.Inv w' → S.start j w w' → O.Safe j (O.Post j) (S.body j) w')
    {c c' : Pool C R W J α} (h : O.Kept c) (hs : S.Step c c') : O.Kept c' := by
  obtain ⟨hi, hsafe, hap⟩ := h
  cases hs with
  | @start w w' ts j hj hw =>
    have hnew : O.Inv w' ∧ ∀ i, O.Rely i w w' := by
      rcases O.start j w w' hi hw with rfl | h
      · exact ⟨hi, fun i => O.rely_refl i w'⟩
      · exact h
    refine ⟨hnew.1, fun t ht => ?_, ?_⟩
    · rcases List.mem_cons.1 ht with rfl | ht
      · exact hb j w w' hnew.1 hw
      · exact (hsafe t ht).mono (hnew.2 t.1)
    · refine List.pairwise_cons.2 ⟨fun t ht => ?_, hap⟩
      exact ⟨(hj t ht).2, (hj t ht).1⟩
  | @run w w' l1 l2 j c k r hr =>
    have hthis := hsafe (j, .call c k) (by simp)
    obtain ⟨-, hstep⟩ := hthis w ((O.terms j).rely_refl w) hi
    obtain ⟨hi', hg, hk⟩ := hstep r w' hr
    rw [List.pairwise_append, List.pairwise_cons] at hap
    obtain ⟨h1, ⟨h2, h3⟩, h4⟩ := hap
    refine ⟨hi', fun t ht => ?_, ?_⟩
    · -- the others only see a change within their rely
      have other : t ∈ l1 ∨ t ∈ l2 → O.Safe t.1 (O.Post t.1) t.2 w' := by
        intro hto
        have hmem : t ∈ l1 ++ (j, Prog.call c k) :: l2 := by
          rcases hto with h | h <;> simp [h]
        have htog : S.together j t.1 := by
          rcases hto with h | h
          · exact (h4 t h (j, .call c k) (by simp)).2
          · exact (h2 t h).1
        exact (hsafe t hmem).mono (O.guar j t.1 w w' htog hi hi' hg)
      rcases List.mem_append.1 ht with h | h
      · exact other (.inl h)
      rcases List.mem_cons.1 h with rfl | h
      · exact hk
      · exact other (.inr h)
    · rw [List.pairwise_append, List.pairwise_cons]
      refine ⟨h1, ⟨fun t ht => h2 t ht, h3⟩, fun s hs t ht => ?_⟩
      rcases List.mem_cons.1 ht with rfl | ht
      · exact h4 s hs (j, .call c k) (by simp)
      · exact h4 s hs t (List.mem_cons_of_mem _ ht)
  | env he =>
    obtain ⟨hi', hr⟩ := O.env _ _ hi he
    exact ⟨hi', fun t ht => (hsafe t ht).mono (hr t.1), hap⟩
  | @drop w l1 l2 t =>
    refine ⟨hi, fun s hs => hsafe s ?_, ?_⟩
    · rcases List.mem_append.1 hs with h | h <;> simp [h]
    · exact hap.sublist ((List.Sublist.refl l1).append (List.sublist_cons_self t l2))

theorem Kept.reachable (hb : ∀ j w w', O.Inv w' → S.start j w w' → O.Safe j (O.Post j) (S.body j) w')
    {c : Pool C R W J α} (h : S.Reachable c) : O.Kept c := by
  induction h with
  | init hw => exact ⟨O.init _ hw, by simp, by simp⟩
  | step _ hs ih => exact ih.step hb hs

/-- A program about to make a call meets what the call requires. -/
theorem Kept.req {c : Pool C R W J α} (h : O.Kept c) {j : J} {o : C} {k : R o → Prog C R α}
    (ht : (j, .call o k) ∈ c.threads) : O.Req j o c.world :=
  (h.safe _ ht c.world ((O.terms j).rely_refl _) h.inv).1

/-- The result of a program that has ended meets its postcondition. -/
theorem Kept.post {c : Pool C R W J α} (h : O.Kept c) {j : J} {a : α}
    (ht : (j, .ret a) ∈ c.threads) : O.Post j a c.world :=
  h.safe _ ht c.world ((O.terms j).rely_refl _) h.inv

end Outline

end Distort.Lib
