import Distort.Lib.Prog

/-!
A program alone with a server that has a state.

* `Server C R σ` — what a call may do: the answer and the state after it, for the state before;
* `Reaches S p s q t` — from `p` and the state `s` one may get to `q` and the state `t`; a crash leaves a program
  there, and a run to the end leads to `.ret a`;
* `Server.noted` — the same server, with a note of the run beside the state; programs that leave the note alone keep
  what holds (`Holds.noted`);
* `Holds S I Q p s` — `I` holds at every moment of every run of `p` from `s`, and `Q` at its end (`Reaches.holds`);
* `Keeps S I p` — every run of `p` keeps `I`;
* `OnOk K` — `K` where a fallible program succeeds; `Holds.try` goes through a sequence of such programs;
* `Ensures S Q p s` — every run of `p` from `s` ends, whatever `S` chooses, and `Q` holds then;
* `Session` — one program after the other, each cut off anywhere, and what all of them keep (`Session.inv`);
* `Yields serve Q p s` — the one run of `p` against a server that makes no choices ends, with `Q`; a run against a
  part of the state is one against the whole (`Yields.part`).
-/

namespace Distort.Lib

variable {C : Type} {R : C → Type} {σ χ ν J α β : Type}

/-- What each call may do: from the state before to an answer and the state after. -/
abbrev Server (C : Type) (R : C → Type) (σ : Type) : Type := (c : C) → σ → R c → σ → Prop

/-- The server whose answers meet `P`. -/
def Server.where (S : Server C R σ) (P : (c : C) → R c → Bool) : Server C R σ :=
  fun c s r s' => S c s r s' ∧ P c r = true

/-- The server with a note beside the state, which every call brings up to date. -/
def Server.noted (S : Server C R σ) (note : (c : C) → σ → R c → σ → ν → ν) : Server C R (σ × ν) :=
  fun c s r s' => S c s.1 r s'.1 ∧ s'.2 = note c s.1 r s'.1 s.2

/-- The server that makes one of its choices for each call. -/
def Server.of (serve : χ → (c : C) → σ → Option (R c × σ)) : Server C R σ :=
  fun c s r s' => ∃ ch, serve ch c s = some (r, s')

/-- The server that makes no choices. -/
def Server.always (serve : (c : C) → σ → Option (R c × σ)) : Server C R σ := fun c s r s' => serve c s = some (r, s')

/-- A part of a state: how it is read, and how it is replaced. -/
structure Part (τ σ : Type) where
  get : τ → σ
  put : σ → τ → τ
  get_put : ∀ s w, get (put s w) = s
  put_put : ∀ s s' w, put s' (put s w) = put s' w
  put_get : ∀ w, put (get w) w = w

/-- The calls that a part of the state answers. -/
def Part.over {τ : Type} (P : Part τ σ) (inner : (c : C) → σ → Option (R c × σ)) (c : C) (w : τ) : Option (R c × τ) :=
  (inner c (P.get w)).map fun a => (a.1, P.put a.2 w)

theorem Part.over_eq_some {τ : Type} (P : Part τ σ) (inner : (c : C) → σ → Option (R c × σ)) {c : C} {w : τ} {r : R c}
    {s : σ} (h : inner c (P.get w) = some (r, s)) : P.over inner c w = some (r, P.put s w) := by
  rw [Part.over, h, Option.map_some]

variable {P : C → Prop}

namespace Prog

variable {S : Server C R σ} {I : σ → Prop} {Q : α → σ → Prop} {p q : Prog C R α} {s t : σ}
  {f : α → Prog C R β} {K : β → σ → Prop} {ε : Type} {m : Prog C R (Except ε α)} {g : ε → Prog C R β} {k : α → Prog C R β}

/-! ### Runs -/

/-- Where a program may get. -/
inductive Reaches (S : Server C R σ) : Prog C R α → σ → Prog C R α → σ → Prop
  | refl (p : Prog C R α) (s : σ) : Reaches S p s p s
  | step {c : C} {k : R c → Prog C R α} {r : R c} {s s' t : σ} {q : Prog C R α} :
      S c s r s' → Reaches S (k r) s' q t → Reaches S (.call c k) s q t

theorem Reaches.trans {u : σ} {q' : Prog C R α} (h : Reaches S p s q t) (h' : Reaches S q t q' u) :
    Reaches S p s q' u := by
  induction h with
  | refl p s => exact h'
  | step hc _ ih => exact .step hc (ih h')

/-! ### What holds along them -/

/-- `I` at every moment, and `Q` at the end. -/
def Holds (S : Server C R σ) (I : σ → Prop) (Q : α → σ → Prop) : Prog C R α → σ → Prop
  | .ret a, s => I s ∧ Q a s
  | .call c k, s => I s ∧ ∀ r s', S c s r s' → Holds S I Q (k r) s'

/-- `Q` at the end. -/
abbrev Meets (S : Server C R σ) (Q : α → σ → Prop) : Prog C R α → σ → Prop := Holds S (fun _ => True) Q

theorem Holds.inv (h : Holds S I Q p s) : I s := by
  cases p with
  | ret a => exact h.1
  | call c k => exact h.1

/-- What holds of a program holds of what is left of it. -/
theorem Reaches.holds (h : Reaches S p s q t) (hp : Holds S I Q p s) : Holds S I Q q t := by
  induction h with
  | refl p s => exact hp
  | step hc _ ih => exact ih (hp.2 _ _ hc)

theorem Holds.ret {a : α} (hI : I s) (hQ : Q a s) : Holds S I Q (.ret a) s := ⟨hI, hQ⟩

/-- One call. -/
theorem Holds.op {c : C} {Q : R c → σ → Prop} (hI : I s) (h : ∀ r s', S c s r s' → I s' ∧ Q r s') :
    Holds S I Q (.call c .ret) s :=
  ⟨hI, h⟩

theorem Holds.bind (h : Holds S I (fun a => Holds S I K (f a)) p s) : Holds S I K (p >>= f) s := by
  induction p generalizing s with
  | ret a => exact h.2
  | call c k ih => exact ⟨h.1, fun r s' hr => ih r (h.2 r s' hr)⟩

theorem Holds.mono {Q' : α → σ → Prop} (h : Holds S I Q p s) (hQ : ∀ a t, I t → Q a t → Q' a t) : Holds S I Q' p s := by
  induction p generalizing s with
  | ret a => exact ⟨h.1, hQ a s h.1 h.2⟩
  | call c k ih => exact ⟨h.1, fun r s' hr => ih r (h.2 r s' hr)⟩

theorem Holds.weaken {I' : σ → Prop} (h : Holds S I Q p s) (hI : ∀ t, I t → I' t) : Holds S I' Q p s := by
  induction p generalizing s with
  | ret a => exact ⟨hI s h.1, h.2⟩
  | call c k ih => exact ⟨hI s h.1, fun r s' hr => ih r (h.2 r s' hr)⟩

theorem Holds.check (h : Holds S I (fun r t => match r with
      | .error e => Holds S I K (g e) t
      | .ok a => Holds S I K (k a) t) m s) : Holds S I K (m.check g k) s := by
  refine Holds.bind (h.mono fun r t _ hr => ?_)
  cases r <;> exact hr

/-- The calls that are made keep what holds. -/
theorem Holds.of_only (hp : p.Only P) (hs : I s)
    (hstep : ∀ c s r s', P c → I s → S c s r s' → I s') : Holds S I (fun _ => I) p s := by
  induction p generalizing s with
  | ret a => exact ⟨hs, hs⟩
  | call c k ih => exact ⟨hs, fun r s' hr => ih r (hp.2 r) (hstep c s r s' hp.1 hs hr)⟩

/-- A program whose calls leave the note alone. -/
theorem Holds.noted {note : (c : C) → σ → R c → σ → ν → ν} {n : ν} (h : Holds S I Q p s) (hp : p.Only P)
    (hn : ∀ c s r s', P c → note c s r s' n = n) :
    Holds (S.noted note) (fun x => I x.1) (fun a x => Q a x.1 ∧ x.2 = n) p (s, n) := by
  induction p generalizing s with
  | ret a => exact ⟨h.1, h.2, rfl⟩
  | call c k ih =>
    refine ⟨h.1, ?_⟩
    rintro r ⟨s', n'⟩ ⟨hr, hn'⟩
    obtain rfl : n' = n := hn'.trans (hn c s r s' hp.1)
    exact ih r (h.2 r s' hr) (hp.2 r)

/-! ### Programs that keep something -/

/-- Wherever the program is cut off, `I` holds if it did at the start. -/
def Keeps (S : Server C R σ) (I : σ → Prop) (p : Prog C R α) : Prop := ∀ s, I s → Holds S I (fun _ => I) p s

theorem Keeps.ret (a : α) : Keeps S I (.ret a : Prog C R α) := fun _ hs => ⟨hs, hs⟩

theorem Keeps.op {c : C} (h : ∀ s r s', I s → S c s r s' → I s') : Keeps S I (.call c .ret) :=
  fun s hs => .op hs fun r s' hr => ⟨h s r s' hs hr, h s r s' hs hr⟩

theorem Keeps.bind (hp : Keeps S I p) (hf : ∀ a, Keeps S I (f a)) : Keeps S I (p >>= f) :=
  fun s hs => .bind ((hp s hs).mono fun a t ht _ => hf a t ht)

theorem Keeps.check (hm : Keeps S I m) (hg : ∀ e, Keeps S I (g e)) (hk : ∀ a, Keeps S I (k a)) : Keeps S I (m.check g k) := by
  refine hm.bind fun r => ?_
  cases r with
  | error e => exact hg e
  | ok a => exact hk a

/-! ### Programs that may fail -/

/-- What holds where the program succeeds. -/
def OnOk {ε : Type} (K : α → σ → Prop) (r : Except ε α) (s : σ) : Prop := ∀ a, r = .ok a → K a s

theorem onOk_error (e : ε) : OnOk Q (.error e : Except ε α) s := nofun

theorem onOk_ok {a : α} (h : Q a s) : OnOk Q (.ok a : Except ε α) s := by
  rintro b ⟨⟩
  exact h

/-- A failure of the first part is one of the whole. -/
theorem Holds.try {ε' : Type} {e : ε → ε'} {k : α → Prog C R (Except ε' β)}
    (h : Holds S I (OnOk fun a => Holds S I (OnOk K) (k a)) m s) :
    Holds S I (OnOk K) (m.check (fun x => .ret (.error (e x))) k) s := by
  refine Holds.bind (h.mono fun r t hI hr => ?_)
  cases r with
  | error x => exact .ret hI (onOk_error _)
  | ok a => exact hr a rfl

/-! ### Runs that end -/

/-- The server always has an answer, and `Q` holds at the end. -/
def Ensures (S : Server C R σ) (Q : α → σ → Prop) : Prog C R α → σ → Prop
  | .ret a, s => Q a s
  | .call c k, s => (∃ r s', S c s r s') ∧ ∀ r s', S c s r s' → Ensures S Q (k r) s'

theorem Ensures.ret {a : α} (h : Q a s) : Ensures S Q (.ret a) s := h

/-- One call. -/
theorem Ensures.op {c : C} {Q : R c → σ → Prop} (hex : ∃ r s', S c s r s') (h : ∀ r s', S c s r s' → Q r s') :
    Ensures S Q (.call c .ret) s :=
  ⟨hex, h⟩

theorem Ensures.bind (h : Ensures S (fun a => Ensures S K (f a)) p s) : Ensures S K (p >>= f) s := by
  induction p generalizing s with
  | ret a => exact h
  | call c k ih => exact ⟨h.1, fun r s' hr => ih r (h.2 r s' hr)⟩

theorem Ensures.mono {Q' : α → σ → Prop} (h : Ensures S Q p s) (hQ : ∀ a t, Q a t → Q' a t) : Ensures S Q' p s := by
  induction p generalizing s with
  | ret a => exact hQ a s h
  | call c k ih => exact ⟨h.1, fun r s' hr => ih r (h.2 r s' hr)⟩

/-- The first part succeeds. -/
theorem Ensures.check (h : Ensures S (fun r t => ∃ a, r = .ok a ∧ Ensures S K (k a) t) m s) :
    Ensures S K (m.check g k) s := by
  refine .bind (h.mono ?_)
  rintro _ t ⟨a, rfl, ha⟩
  exact ha

/-- The first part fails. -/
theorem Ensures.check_error (h : Ensures S (fun r t => ∃ e, r = .error e ∧ Ensures S K (g e) t) m s) :
    Ensures S K (m.check g k) s := by
  refine .bind (h.mono ?_)
  rintro _ t ⟨e, rfl, he⟩
  exact he

/-- A server that is the same for the calls that are made. -/
theorem Ensures.of_only {T : Server C R σ} (h : Ensures S Q p s) (hp : p.Only P)
    (hS : ∀ c s r s', P c → (T c s r s' ↔ S c s r s')) : Ensures T Q p s := by
  induction p generalizing s with
  | ret a => exact h
  | call c k ih =>
    obtain ⟨r, s', hr⟩ := h.1
    exact ⟨⟨r, s', (hS c s r s' hp.1).2 hr⟩, fun r s' hr => ih r (h.2 r s' ((hS c s r s' hp.1).1 hr)) (hp.2 r)⟩

/-! ### One program after the other -/

/-- Programs run one after the other; each may be cut off anywhere. -/
inductive Session (S : J → Server C R σ) (body : J → Prog C R α) : σ → σ → Prop
  | refl (s : σ) : Session S body s s
  | step {s t u : σ} {q : Prog C R α} (j : J) :
      Session S body s t → Reaches (S j) (body j) t q u → Session S body s u

theorem Session.inv {S : J → Server C R σ} {body : J → Prog C R α} (h : Session S body s t)
    (hbody : ∀ j s, I s → Holds (S j) I (fun _ _ => True) (body j) s) (hs : I s) : I t := by
  induction h with
  | refl => exact hs
  | step j _ hrun ih => exact (hrun.holds (hbody j _ ih)).inv

theorem Reaches.mono {S' : Server C R σ} (h : Reaches S p s q t) (hS : S ≤ S') : Reaches S' p s q t := by
  induction h with
  | refl p s => exact .refl p s
  | step hc _ ih => exact .step (hS _ _ _ _ hc) ih

theorem Session.mono {S S' : J → Server C R σ} {body : J → Prog C R α} (h : Session S body s t) (hS : ∀ j, S j ≤ S' j) :
    Session S' body s t := by
  induction h with
  | refl => exact .refl s
  | step j _ hrun ih => exact .step j ih (hrun.mono (hS j))

/-! ### Evaluation -/

/-- A run with given choices, as far as they go. -/
def exec (serve : χ → (c : C) → σ → Option (R c × σ)) : List χ → Prog C R α → σ → Prog C R α × σ
  | ch :: chs, .call c k, s =>
    match serve ch c s with
    | some (r, s') => exec serve chs (k r) s'
    | none => (.call c k, s)
  | _, p, s => (p, s)

theorem reaches_of_exec {serve : χ → (c : C) → σ → Option (R c × σ)}
    (hS : ∀ ch c s a, serve ch c s = some a → S c s a.1 a.2) (chs : List χ) (p : Prog C R α) (s : σ) :
    Reaches S p s (p.exec serve chs s).1 (p.exec serve chs s).2 := by
  induction chs generalizing p s with
  | nil => cases p <;> exact .refl _ _
  | cons ch chs ih =>
    cases p with
    | ret a => exact .refl _ _
    | call c k =>
      simp only [exec]
      split
      · rename_i r s' hr
        exact .step (hS ch c s (r, s') hr) (ih (k r) s')
      · exact .refl _ _

theorem reaches_exec (serve : χ → (c : C) → σ → Option (R c × σ)) (chs : List χ) (p : Prog C R α) (s : σ) :
    Reaches (.of serve) p s (p.exec serve chs s).1 (p.exec serve chs s).2 :=
  reaches_of_exec (fun ch _ _ _ h => ⟨ch, h⟩) chs p s

/-- A run whose answers all meet `P`. -/
theorem reaches_exec_where (serve : χ → (c : C) → σ → Option (R c × σ)) (P : (c : C) → R c → Bool) (chs : List χ)
    (p : Prog C R α) (s : σ) :
    let e := p.exec (fun ch c s => (serve ch c s).filter fun a => P c a.1) chs s
    Reaches ((Server.of serve).where P) p s e.1 e.2 := by
  refine reaches_of_exec (fun ch c s a h => ?_) chs p s
  obtain ⟨hserve, hP⟩ := Option.filter_eq_some_iff.1 h
  exact ⟨⟨ch, hserve⟩, hP⟩

/-- The same, with a note of the run. -/
theorem reaches_exec_noted (serve : χ → (c : C) → σ → Option (R c × σ)) (P : (c : C) → R c → Bool)
    (note : (c : C) → σ → R c → σ → ν → ν) (chs : List χ) (p : Prog C R α) (s : σ × ν) :
    let e := p.exec (fun ch c s => ((serve ch c s.1).filter fun a => P c a.1).map fun a =>
      (a.1, a.2, note c s.1 a.1 a.2 s.2)) chs s
    Reaches (((Server.of serve).where P).noted note) p s e.1 e.2 := by
  refine reaches_of_exec (fun ch c s a h => ?_) chs p s
  obtain ⟨b, hb, rfl⟩ := Option.map_eq_some_iff.1 h
  obtain ⟨hserve, hP⟩ := Option.filter_eq_some_iff.1 hb
  exact ⟨⟨⟨ch, hserve⟩, hP⟩, rfl⟩

/-- The run against a server that makes no choices. -/
def run (serve : (c : C) → σ → Option (R c × σ)) : Prog C R α → σ → Option (α × σ)
  | .ret a, s => some (a, s)
  | .call c k, s => (serve c s).bind fun r => run serve (k r.1) r.2

/-- The run ends, and `Q` holds then. -/
def Yields (serve : (c : C) → σ → Option (R c × σ)) (Q : α → σ → Prop) (p : Prog C R α) (s : σ) : Prop :=
  ∃ a t, run serve p s = some (a, t) ∧ Q a t

section run

variable {serve : (c : C) → σ → Option (R c × σ)}

theorem run_bind {a : α} (h : run serve p s = some (a, t)) : run serve (p >>= f) s = run serve (f a) t := by
  induction p generalizing s with
  | ret b =>
    cases h
    rfl
  | call c k ih =>
    obtain ⟨r, hr, hk⟩ := Option.bind_eq_some_iff.1 h
    simp only [call_bind, run, hr, Option.bind_some]
    exact ih _ hk

theorem Yields.ret {a : α} (h : Q a s) : Yields serve Q (.ret a) s := ⟨a, s, rfl, h⟩

/-- One call. -/
theorem Yields.op (c : C) {r : R c} {Q : R c → σ → Prop} (hc : serve c s = some (r, t)) (h : Q r t) :
    Yields serve Q (.call c .ret) s :=
  ⟨r, t, by simp [run, hc], h⟩

theorem Yields.bind (h : Yields serve (fun a => Yields serve K (f a)) p s) : Yields serve K (p >>= f) s := by
  obtain ⟨a, t, hrun, b, u, hrun', hQ⟩ := h
  exact ⟨b, u, (run_bind hrun).trans hrun', hQ⟩

theorem Yields.mono {Q' : α → σ → Prop} (h : Yields serve Q p s) (hQ : ∀ a t, Q a t → Q' a t) : Yields serve Q' p s := by
  obtain ⟨a, t, hrun, ha⟩ := h
  exact ⟨a, t, hrun, hQ a t ha⟩

/-- A run that can only end in one way. -/
theorem Yields.run_eq {a : α} (h : Yields serve (fun b u => b = a ∧ u = t) p s) : run serve p s = some (a, t) := by
  obtain ⟨_, _, hrun, rfl, rfl⟩ := h
  exact hrun

/-- What every call keeps holds at the end. -/
theorem Yields.inv (h : Yields serve Q p s) (hstep : ∀ c s r s', I s → serve c s = some (r, s') → I s') (hs : I s) :
    Yields serve (fun a t => Q a t ∧ I t) p s := by
  obtain ⟨a, t, hrun, hQ⟩ := h
  refine ⟨a, t, hrun, hQ, ?_⟩
  induction p generalizing s with
  | ret b =>
    cases hrun
    exact hs
  | call c k ih =>
    obtain ⟨⟨r, s'⟩, hc, hk⟩ := Option.bind_eq_some_iff.1 hrun
    exact ih r (hstep c s r s' hs hc) hk

/-- What is left of a run ends as the run does. -/
theorem Reaches.run_eq (h : Reaches (.always serve) p s q t) : run serve p s = run serve q t := by
  induction h with
  | refl p s => rfl
  | step hc _ ih => rw [run, hc, Option.bind_some, ih]

theorem reaches_of_run {a : α} (h : run serve p s = some (a, t)) : Reaches (.always serve) (p >>= f) s (f a) t := by
  induction p generalizing s with
  | ret b =>
    cases h
    exact .refl _ _
  | call c k ih =>
    obtain ⟨⟨r, s'⟩, hc, hk⟩ := Option.bind_eq_some_iff.1 h
    exact .step hc (ih r hk)

/-- The first part succeeds. -/
theorem Yields.check (h : Yields serve (fun r t => ∃ a, r = .ok a ∧ Yields serve K (k a) t) m s) :
    Yields serve K (m.check g k) s := by
  refine .bind (h.mono ?_)
  rintro _ t ⟨a, rfl, ha⟩
  exact ha

/-- The first part fails. -/
theorem Yields.check_error (h : Yields serve (fun r t => ∃ e, r = .error e ∧ Yields serve K (g e) t) m s) :
    Yields serve K (m.check g k) s := by
  refine .bind (h.mono ?_)
  rintro _ t ⟨e, rfl, he⟩
  exact he

end run

/-! ### A part of the state -/

section part

variable {τ : Type} {serve : (c : C) → τ → Option (R c × τ)} {inner : (c : C) → σ → Option (R c × σ)}

/-- A run against a server of a part of the state is a run against the server of the whole, and the rest stays as it
was. -/
theorem Yields.part (P : Part τ σ) {w : τ}
    (hstep : ∀ c w r s, inner c (P.get w) = some (r, s) → serve c w = some (r, P.put s w)) (h : Yields inner Q p (P.get w)) :
    Yields serve (fun a w' => ∃ s, w' = P.put s w ∧ Q a s) p w := by
  obtain ⟨a, s, hrun, hQ⟩ := h
  refine ⟨a, P.put s w, ?_, s, rfl, hQ⟩
  induction p generalizing w with
  | ret b =>
    obtain ⟨rfl, rfl⟩ := Prod.mk.inj (Option.some.inj hrun)
    rw [P.put_get]
    rfl
  | call c k ih =>
    obtain ⟨⟨r, s1⟩, hc, hk⟩ := Option.bind_eq_some_iff.1 hrun
    have hrest := ih r (w := P.put s1 w) (by rw [P.get_put]; exact hk)
    rw [P.put_put] at hrest
    simp only [run, hstep c w r s1 hc, Option.bind_some, hrest]

end part

end Prog

end Distort.Lib
