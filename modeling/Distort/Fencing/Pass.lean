import Distort.Fencing.Callers

/-!
A pass of the agent keeps the invariant.

Between its calls the agent counts on `Undisturbed`: nobody else touches the target, and an
attachment that is fenced stays.  So what it concluded from the version it was shown still holds when
it acts, with one exception: if its cache lags, a version shown as marked may be of a lifetime that is
gone.  There the caller of these lemmas has to say that the patch meets the lifetime it was meant for.
-/

namespace Distort.Fencing

open Go Lib Lib.Kube Api Agent Csi Proc

variable [StdLib] {cfg : Config} {G : Job → Call → World → Bool}

/-- The terms of a pass. -/
def passTerms (cfg : Config) (G : Job → Call → World → Bool) : Terms Call Call.Resp World where
  sem := ((machine cfg).guarded G).system.sem .pass
  Inv := Inv cfg
  Rely := Undisturbed
  Guar w w' := w.log <:+ w'.log
  Req _ _ := True
  rely_refl := .refl
  rely_trans := .trans

/-- What a pass knows of the version `v` that it was shown. -/
structure Holds (cfg : Config) (v : Option NVMeVolumeAttachment) (w : World) : Prop where
  last : lastRead w.log = some v
  /-- A fenced attachment is still the stored one, unless the cache lags and shows it as marked. -/
  held : ∀ a, v = some a → Fenced a → cfg.lag = false ∨ ¬ Marked a →
    ∃ b, w.cur = some b ∧ b.spec = a.spec ∧ Fenced b

theorem Holds.undisturbed {v : Option NVMeVolumeAttachment} {w w' : World} (h : Holds cfg v w)
    (hu : Undisturbed w w') : Holds cfg v w' := by
  refine ⟨hu.lastRead.trans h.last, fun a ha hf hm => ?_⟩
  obtain ⟨b, hb, hbs, hbf⟩ := h.held a ha hf hm
  obtain ⟨b', hb', hbs', hbf'⟩ := hu.fenced b hb hbf
  exact ⟨b', hb', hbs'.trans hbs, hbf'⟩

theorem Holds.onTarget {v : Option NVMeVolumeAttachment} {w w' : World} (h : Holds cfg v w)
    (ht : OnTarget w w') : Holds cfg v w' := by
  refine ⟨ht.lastRead.trans h.last, fun a ha hf hm => ?_⟩
  obtain ⟨b, hb, hbs⟩ := h.held a ha hf hm
  refine ⟨b, ?_, hbs⟩
  rw [← hb]
  exact congrArg Feed.cur ht.attachment

/-- The hosts that the target should let in. -/
def wanted (host : Str) : List Str := if host = [] then [] else [host]

section

variable {w : World} {v : Option NVMeVolumeAttachment}

/-- The pass still knows `v`, and `K` holds of the result and of the target. -/
def Shows {α : Type} (cfg : Config) (v : Option NVMeVolumeAttachment) (K : α → Target → Prop) (r : α) (w : World) : Prop :=
  Holds cfg v w ∧ K r w.target

/-- What a program that changes the target has to show: if there is no error, the target is as wanted. -/
abbrev Reaches (cfg : Config) (v : Option NVMeVolumeAttachment) (K : Target → Prop) : Except Err Unit → World → Prop :=
  Shows cfg v fun r t => r = .ok () → K t

theorem shows_ret {α : Type} {K : α → Target → Prop} {r : α} (h : Shows cfg v K r w) :
    (passTerms cfg G).Safe (Shows cfg v K) (.ret r) w :=
  .ret fun _ hu _ => ⟨h.1.undisturbed hu, by rw [hu.target]; exact h.2⟩

/-- One call to the target, for a pass that was shown `v`; `K` is what it learns or achieves. -/
theorem pass_call {c : Call} (P : Target → Prop) {K : c.Resp → Target → Prop} (hv : Holds cfg v w) (hP : P w.target)
    (hstep : ∀ ch w1 r w2, Inv cfg w1 → Holds cfg v w1 → P w1.target → answer cfg ch .pass c w1 = some (r, w2) →
      Inv cfg w2 ∧ OnTarget w1 w2 ∧ K r w2.target) : (passTerms cfg G).Safe (Shows cfg v K) (.call c .ret) w := by
  refine .call (fun _ _ _ => trivial) fun w1 r w2 hu hi hs => ?_
  obtain ⟨-, ch, ha⟩ := answer_of_sem hs
  have hv1 := hv.undisturbed hu
  obtain ⟨hi2, ht, hk⟩ := hstep ch w1 r w2 hi hv1 (by rw [hu.target]; exact hP) ha
  exact ⟨hi2, ht.log, shows_ret ⟨hv1.onTarget ht, hk⟩⟩

/-- What a request to the target may have done. -/
theorem kept_of_answer {ρ : Type} {fate : Fate} {w w' : World} {served : Except Err ρ × World} {r : Except Err ρ}
    (ha : fate.answer w served = some (r, w')) (hi : Inv cfg w) (h : Inv cfg served.2 ∧ OnTarget w served.2) :
    Inv cfg w' ∧ OnTarget w w' := by
  rcases Fate.answer_state ha with rfl | rfl
  · exact ⟨hi, .refl _⟩
  · exact h

variable {hosts : List Str}

/-- A call that leaves the entries of the target alone. -/
theorem pass_aside {c : Call} (hv : Holds cfg v w) (hT : w.target.hosts = hosts)
    (hstep : ∀ ch w1 r w2, answer cfg ch .pass c w1 = some (r, w2) →
      w2 = w1 ∨ (∃ b, w2 = w1.setLinked b) ∨ w2 = w1.setAnyHost false) :
    (passTerms cfg G).Safe (Shows cfg v fun _ t => t.hosts = hosts) (.call c .ret) w := by
  refine pass_call (·.hosts = hosts) hv hT fun ch w1 r w2 hi _ ht ha => ?_
  rcases hstep ch w1 r w2 ha with rfl | ⟨b, rfl⟩ | rfl
  · exact ⟨hi, .refl _, ht⟩
  · exact ⟨setLinked_served hi b, ⟨rfl, List.suffix_rfl, rfl⟩, ht⟩
  · exact ⟨setAnyHost_served hi, ⟨rfl, List.suffix_rfl, rfl⟩, ht⟩

variable {K : Target → Prop}

theorem reaches_done (hv : Holds cfg v w) (hK : K w.target) : (passTerms cfg G).Safe (Reaches cfg v K) (done ()) w :=
  shows_ret ⟨hv, fun _ => hK⟩

theorem reaches_fail {err : Err} (h : Holds cfg v w) : (passTerms cfg G).Safe (Reaches cfg v K) (fail err) w :=
  shows_ret ⟨h, by simp⟩

/-- What follows the first part; if that fails, so does the whole. -/
theorem reaches_next {α : Type} {p : Proc (Except Err α)} {e : Err → Err} {k : α → Proc (Except Err Unit)}
    {L : Except Err α → Target → Prop} (h : (passTerms cfg G).Safe (Shows cfg v L) p w)
    (hk : ∀ a w1, Holds cfg v w1 → L (.ok a) w1.target → (passTerms cfg G).Safe (Reaches cfg v K) (k a) w1) :
    (passTerms cfg G).Safe (Reaches cfg v K) (p.check (fun err => fail (e err)) k) w :=
  h.andThen (fun _ _ h1 => reaches_fail h1.1) fun a w1 h1 => hk a w1 h1.1 h1.2

theorem uninterrupted_safe {k : Proc (Except Err Unit)} (hv : Holds cfg v w) (hT : w.target.hosts = hosts)
    (hk : ∀ w1, Holds cfg v w1 → w1.target.hosts = hosts → (passTerms cfg G).Safe (Reaches cfg v K) k w1) :
    (passTerms cfg G).Safe (Reaches cfg v K) (ctxErr >>= fun interrupted =>
      match interrupted with
      | some err => fail err
      | none => k) w := by
  refine .bind ((pass_aside hv hT fun ch w1 r w2 ha => ?_).conseq fun interrupted w1 _ h => ?_)
  · exact .inl (Prod.mk.inj (Option.some.inj ha)).2.symm
  cases interrupted with
  | some err => exact reaches_fail h.1
  | none => exact hk w1 h.1 h.2

theorem unless_safe {p : Proc (Except Err Unit)} {tolerated : Err → Bool} {wrap : Err → Err}
    (h : (passTerms cfg G).Safe (Shows cfg v fun r t => (∀ err, r = .error err → tolerated err = true) → K t) p w) :
    (passTerms cfg G).Safe (Reaches cfg v K)
      (p.check (fun err => if tolerated err then done () else fail (wrap err)) done) w := by
  refine h.andThen (fun err w1 h1 => ?_) fun _ w1 h1 => reaches_done h1.1 (h1.2 nofun)
  split
  · rename_i htolerated
    exact reaches_done h1.1 (h1.2 (by rintro e ⟨⟩; exact htolerated))
  · exact reaches_fail h1.1

variable {host : Str}

theorem Holds.canGrant (h : Holds cfg v w) (hh : host = desiredHost cfg.partition v) (hne : host ≠ []) :
    ∃ a b, w.cur = some b ∧ Fenced b ∧ b.spec.hostNQN = host ∧ a.spec = b.spec ∧ lastRead w.log = some (some a) := by
  subst hh
  cases v with
  | none => exact absurd rfl hne
  | some a =>
    simp only [desiredHost] at hne ⊢
    by_cases hval : validAttachment cfg.partition a = true
    · rw [if_pos hval]
      simp only [validAttachment, Bool.and_eq_true, Bool.not_eq_eq_eq_not, Bool.not_true,
        containsFinalizer_iff, decide_eq_true_eq] at hval
      obtain ⟨⟨⟨⟨hm, hf⟩, -⟩, -⟩, -⟩ := hval
      obtain ⟨b, hb, hbs, hbf⟩ := h.held a rfl hf (.inr (by simp [Marked, hm]))
      exact ⟨a, b, hb, hbf, by rw [hbs], hbs.symm, h.last⟩
    · simp [hval] at hne

/-- What letting in the wanted host makes of the target. -/
theorem Holds.addHost_kept {w w' : World} {ρ : Type} {fate : Fate} {r : Except Err ρ} {a : ρ} (hv : Holds cfg v w)
    (ha : fate.answer w (.ok a, w.addHost host) = some (r, w')) (hi : Inv cfg w) (hnil : w.target.hosts = [])
    (hhost : host = desiredHost cfg.partition v) (hne : host ≠ []) : Inv cfg w' ∧ OnTarget w w' := by
  obtain ⟨a, b, hb, hbf, hbh, hab, hl⟩ := hv.canGrant hhost hne
  exact kept_of_answer ha hi ⟨addHost_served hi hnil hb hbf hbh hab hl, onTarget_addHost _ _⟩

/-! ### SPDK -/

theorem spdk_removeHosts_safe (hv : Holds cfg v w) (hsub : ∀ x ∈ w.target.hosts, x ∈ hosts) :
    (passTerms cfg G).Safe (Reaches cfg v (·.hosts = [])) (Spdk.removeHosts cfg.nqn hosts) w := by
  induction hosts generalizing w with
  | nil => exact reaches_done hv (List.eq_nil_iff_forall_not_mem.2 fun x hx => List.not_mem_nil (hsub x hx))
  | cons host hosts ih =>
    refine uninterrupted_safe hv rfl fun w1 hv1 hT => ?_
    refine reaches_next (L := fun r t => r = .ok () → ∀ x ∈ t.hosts, x ∈ hosts) (pass_call
      (fun t => ∀ x ∈ t.hosts, x ∈ host :: hosts) hv1 (by rw [hT]; exact hsub) ?_) fun _ w2 hv2 hK => ih hv2 (hK rfl)
    intro ch w2 r w3 hi _ hP ha
    simp only [answer, World.rpc, if_true] at ha
    obtain ⟨hi3, ht⟩ := kept_of_answer ha hi ⟨removeHost_served hi host, onTarget_setHosts _ _⟩
    refine ⟨hi3, ht, ?_⟩
    rintro rfl
    obtain rfl : w3 = w2.removeHost host := (congrArg Prod.snd (Fate.answer_ok ha)).symm
    exact removeHost_hosts hP

theorem spdk_authorizeHost_safe (hv : Holds cfg v w) (hnil : w.target.hosts = [])
    (hhost : host = desiredHost cfg.partition v) :
    (passTerms cfg G).Safe (Reaches cfg v (·.hosts = wanted host)) (Spdk.authorizeHost cfg.nqn host) w := by
  unfold Spdk.authorizeHost wanted
  by_cases hne : host = []
  · simp only [hne, ne_eq, not_true, if_false, if_true]
    exact reaches_done hv hnil
  simp only [hne, ne_eq, not_false_eq_true, if_true, if_false]
  refine reaches_next (L := fun r t => r = .ok () → t.hosts = [host]) (pass_call (·.hosts = []) hv hnil ?_)
    fun _ w1 hv1 hK => reaches_done hv1 (hK rfl)
  intro ch w1 r w2 hi hv1 hP ha
  simp only [answer, World.rpc, if_true] at ha
  obtain ⟨hi2, ht⟩ := hv1.addHost_kept ha hi hP hhost hne
  refine ⟨hi2, ht, ?_⟩
  rintro rfl
  obtain rfl : w2 = w1.addHost host := (congrArg Prod.snd (Fate.answer_ok ha)).symm
  exact addHost_hosts hP

theorem spdk_disableAnyHost_safe {current : Subsystem} (hv : Holds cfg v w) (hT : w.target.hosts = hosts) :
    (passTerms cfg G).Safe (Reaches cfg v (·.hosts = hosts)) (Spdk.disableAnyHost cfg.nqn current) w := by
  unfold Spdk.disableAnyHost
  split
  · refine reaches_next (pass_aside hv hT fun ch w1 r w2 ha => ?_) fun _ w1 hv1 hT1 => reaches_done hv1 hT1
    simp only [answer, World.rpc, if_true] at ha
    exact (Fate.answer_state ha).imp_right .inr
  · exact reaches_done hv hT

theorem spdk_reconcileHostAccess_safe (hv : Holds cfg v w) (hhost : host = desiredHost cfg.partition v) :
    (passTerms cfg G).Safe (Reaches cfg v (·.hosts = wanted host)) (Spdk.reconcileHostAccess cfg.nqn host) w := by
  refine uninterrupted_safe hv rfl fun w1 hv1 _ => ?_
  -- what is read of the subsystem is how the target is now, and stays so
  refine reaches_next (L := fun r t => ∀ l, r = .ok l → ∃ anyHost, l.find? (fun s => s.nqn = cfg.nqn) =
    some { nqn := cfg.nqn, allowAnyHost := anyHost, hosts := t.hosts }) (pass_call (fun _ => True) hv1 trivial ?_)
    fun l w2 hv2 hK => ?_
  · intro ch w2 r w3 hi _ _ ha
    simp only [answer, World.rpc] at ha
    obtain rfl : w3 = w2 := (Fate.answer_state ha).elim id id
    refine ⟨hi, .refl _, ?_⟩
    rintro l rfl
    have hl := congrArg Prod.fst (Fate.answer_ok ha)
    simp only [Except.ok.injEq] at hl
    refine ⟨w3.target.allowAnyHost, ?_⟩
    rw [← hl, List.find?_append, List.find?_eq_none.2]
    · simp
    · intro s hs
      simpa using (List.mem_filter.1 hs).2
  · obtain ⟨anyHost, hfind⟩ := hK l rfl
    simp only [hfind]
    split
    · rename_i hexact
      refine reaches_done hv2 ?_
      simp only [Spdk.exact, Bool.and_eq_true] at hexact
      unfold wanted
      by_cases hne : host = []
      · simpa [hne] using hexact.2
      · simpa [hne] using hexact.2
    · refine reaches_next (spdk_disableAnyHost_safe hv2 rfl) fun _ w3 hv3 hT3 => ?_
      refine reaches_next (spdk_removeHosts_safe hv3 fun x hx => by rwa [← hT3 rfl]) fun _ w4 hv4 hnil => ?_
      exact spdk_authorizeHost_safe hv4 (hnil rfl) hhost

/-! ### The kernel target -/

/-- Leaves the entries among the allowed hosts alone. -/
def Spares (nqn : Str) : FsCall → Prop
  | .remove path | .symlink _ path => path = Kernel.linkPath nqn
  | .writeFile path data => path = Kernel.allowAnyPath nqn ∧ data = "0"
  | _ => True

theorem fs_spares {c : FsCall} {ch : Choice} {w w' : World} {r : c.Resp} (hc : Spares cfg.nqn c)
    (ha : w.fs cfg ch c = some (r, w')) : w' = w ∨ (∃ b, w' = w.setLinked b) ∨ w' = w.setAnyHost false := by
  cases c with
  | remove path =>
    cases hc
    simp only [World.fs, World.removePath, entryOf_linkPath, if_true] at ha
    rcases Fate.answer_state ha with rfl | rfl
    · exact .inl rfl
    split
    · exact .inr (.inl ⟨_, rfl⟩)
    · exact .inl rfl
  | symlink target path =>
    cases hc
    simp only [World.fs, World.makeLink, entryOf_linkPath, if_true] at ha
    rcases Fate.answer_state ha with rfl | rfl
    · exact .inl rfl
    split
    · exact .inl rfl
    · exact .inr (.inl ⟨_, rfl⟩)
  | writeFile path data =>
    obtain ⟨rfl, rfl⟩ := hc
    simp only [World.fs, if_true] at ha
    exact (Fate.answer_state ha).imp_right fun h => .inr (by simpa using h)
  | _ => exact .inl ((Fate.answer_state ha).elim id id)

theorem pass_fs {c : FsCall} (hc : Spares cfg.nqn c) (hv : Holds cfg v w) (hT : w.target.hosts = hosts) :
    (passTerms cfg G).Safe (Shows cfg v fun _ t => t.hosts = hosts) (fs c) w :=
  pass_aside hv hT fun _ _ _ _ ha => fs_spares hc ha

theorem unless_aside {p : Proc (Except Err Unit)} {tolerated : Err → Bool} {wrap : Err → Err}
    (h : (passTerms cfg G).Safe (Shows cfg v fun _ t => K t) p w) : (passTerms cfg G).Safe (Reaches cfg v K)
      (p.check (fun err => if tolerated err then done () else fail (wrap err)) done) w :=
  unless_safe (h.conseq fun _ _ _ h => ⟨h.1, fun _ => h.2⟩)

theorem pass_readDir {path : Path} (hv : Holds cfg v w) :
    (passTerms cfg G).Safe (Shows cfg v fun r t => ∀ l, r = .ok l → t.hosts = l) (fs (.readDir path)) w := by
  refine pass_call (fun _ => True) hv trivial fun ch w1 r w2 hi _ _ ha => ?_
  simp only [answer, World.fs] at ha
  obtain rfl : w2 = w1 := (Fate.answer_state ha).elim id id
  refine ⟨hi, .refl _, ?_⟩
  rintro l rfl
  have := congrArg Prod.fst (Fate.answer_ok ha)
  simpa using this

theorem kernel_ensureLink_safe (hv : Holds cfg v w) (hT : w.target.hosts = hosts) :
    (passTerms cfg G).Safe (Reaches cfg v (·.hosts = hosts)) (Kernel.ensureKernelSubsystemLink cfg.nqn) w := by
  refine .bind (.conseq (pass_fs trivial hv hT) fun target w1 _ ⟨hv1, hT1⟩ => ?_)
  split
  · exact reaches_done hv1 hT1
  refine reaches_next (L := fun _ t => t.hosts = hosts) ?_ fun _ w2 hv2 hT2 =>
    reaches_next (pass_fs trivial hv2 hT2) fun _ w3 hv3 hT3 =>
    reaches_next (pass_fs rfl hv3 hT3) fun _ w4 hv4 hT4 => reaches_done hv4 hT4
  refine .bind (.conseq (pass_fs trivial hv1 hT1) fun info w2 _ h => ?_)
  rcases info with err | isLink
  · simp only
    split
    · exact shows_ret h
    · exact shows_ret h
  cases isLink with
  | false => exact shows_ret h
  | true => exact .andThen (pass_fs rfl h.1 h.2) (fun _ _ h => shows_ret h) fun _ _ h => shows_ret h

theorem kernel_removeHosts_safe (hv : Holds cfg v w) (hsub : ∀ x ∈ w.target.hosts, x ∈ hosts) :
    (passTerms cfg G).Safe (Reaches cfg v (·.hosts = [])) (Kernel.removeHosts cfg.nqn hosts) w := by
  induction hosts generalizing w with
  | nil => exact reaches_done hv (List.eq_nil_iff_forall_not_mem.2 fun x hx => List.not_mem_nil (hsub x hx))
  | cons host hosts ih =>
    refine reaches_next (unless_safe (K := fun t => ∀ x ∈ t.hosts, x ∈ hosts) (pass_call
      (fun t => ∀ x ∈ t.hosts, x ∈ host :: hosts) hv hsub ?_)) fun _ w1 hv1 hK => ih hv1 (hK rfl)
    intro ch w1 r w2 hi _ hP ha
    simp only [answer, World.fs, World.removePath, entryOf_allowedHostPath] at ha
    have hkept : Inv cfg w2 ∧ OnTarget w1 w2 := by
      refine kept_of_answer ha hi ?_
      split
      · exact ⟨removeHost_served hi host, onTarget_setHosts _ _⟩
      · exact ⟨hi, .refl _⟩
    refine ⟨hkept.1, hkept.2, fun hr => ?_⟩
    -- a missing entry and a removed one are the same to the caller
    have hserved : (if host ∈ w1.target.hosts then (.ok (), w1.removeHost host) else (.error notFound, w1)) =
        (r, w2) := by
      cases r with
      | ok _ => exact Fate.answer_ok ha
      | error err => exact Fate.answer_notFound ha (hr err rfl)
    split at hserved
    · obtain ⟨-, rfl⟩ := Prod.mk.inj hserved
      exact removeHost_hosts hP
    · rename_i hnot
      obtain ⟨-, rfl⟩ := Prod.mk.inj hserved
      intro x hx
      refine (List.mem_cons.1 (hP x hx)).resolve_left ?_
      rintro rfl
      exact hnot hx

theorem kernel_addEntry_safe {target : Path} {wrap : Err → Err} (hv : Holds cfg v w)
    (hnil : w.target.hosts = []) (hhost : host = desiredHost cfg.partition v) (hne : host ≠ []) :
    (passTerms cfg G).Safe (Reaches cfg v (·.hosts = [host]))
      (Kernel.unlessExists (fs (.symlink target (Kernel.allowedHostPath cfg.nqn host))) wrap) w := by
  refine unless_safe (pass_call (·.hosts = []) hv hnil fun ch w1 r w2 hi hv1 hP ha => ?_)
  simp only [answer, World.fs, World.makeLink, entryOf_allowedHostPath, hP, List.not_mem_nil, if_false] at ha
  obtain ⟨hi2, ht⟩ := hv1.addHost_kept ha hi hP hhost hne
  refine ⟨hi2, ht, fun hr => ?_⟩
  rcases Fate.answerWith_cases ha with ⟨-, rfl⟩ | ⟨err, rfl, hinj, -⟩
  · exact addHost_hosts hP
  · simp [injected, hr err rfl] at hinj

theorem kernel_authorizeHost_safe (hv : Holds cfg v w) (hnil : w.target.hosts = [])
    (hhost : host = desiredHost cfg.partition v) :
    (passTerms cfg G).Safe (Reaches cfg v (·.hosts = wanted host)) (Kernel.authorizeHost cfg.nqn host) w := by
  unfold Kernel.authorizeHost wanted
  by_cases hne : host = []
  · simp only [hne, ne_eq, not_true, if_false, if_true]
    exact reaches_done hv hnil
  simp only [hne, ne_eq, not_false_eq_true, if_true, if_false]
  refine reaches_next (unless_aside (pass_fs trivial hv hnil)) fun _ w1 hv1 hT1 => ?_
  exact kernel_addEntry_safe hv1 (hT1 rfl) hhost hne

theorem kernel_replaceHosts_safe {entries : List Str} (hv : Holds cfg v w)
    (hT : w.target.hosts = entries) (hhost : host = desiredHost cfg.partition v) :
    (passTerms cfg G).Safe (Reaches cfg v (·.hosts = wanted host)) (Kernel.replaceHosts cfg.nqn host entries) w := by
  refine reaches_next (unless_aside (pass_fs rfl hv hT)) fun _ w1 hv1 hT1 => ?_
  refine reaches_next (pass_fs ⟨rfl, rfl⟩ hv1 (hT1 rfl)) fun _ w2 hv2 hT2 => ?_
  refine reaches_next (kernel_removeHosts_safe hv2 fun x hx => by rwa [hT2] at hx) fun _ w3 hv3 hnil => ?_
  refine uninterrupted_safe hv3 (hnil rfl) fun w4 hv4 hnil4 => ?_
  refine reaches_next (kernel_authorizeHost_safe hv4 hnil4 hhost) fun _ w5 hv5 hT5 => ?_
  -- back to the port, with the hosts as they should be
  exact unless_aside (pass_fs rfl hv5 (hT5 rfl))

theorem kernel_reconcileHostAccess_safe (hv : Holds cfg v w) (hhost : host = desiredHost cfg.partition v) :
    (passTerms cfg G).Safe (Reaches cfg v (·.hosts = wanted host)) (Kernel.reconcileHostAccess cfg.nqn host) w := by
  refine uninterrupted_safe hv rfl fun w1 hv1 hT1 => ?_
  refine reaches_next (pass_fs trivial hv1 hT1) fun allowAny w2 hv2 _ => ?_
  refine reaches_next (pass_readDir hv2) fun entries w3 hv3 hr => ?_
  have hT3 := hr entries rfl
  split
  · rename_i hexact
    have : entries = wanted host := by
      simp only [Kernel.exact, Bool.and_eq_true] at hexact
      unfold wanted
      by_cases hne : host = []
      · simpa [hne] using hexact.2
      · simpa [hne] using hexact.2
    rw [this] at hT3
    exact kernel_ensureLink_safe hv3 hT3
  · exact kernel_replaceHosts_safe hv3 hT3 hhost

/-- **Either backend lets in the wanted host alone, or fails.** -/
theorem reconcileHostAccess_safe (hv : Holds cfg v w) (hhost : host = desiredHost cfg.partition v) :
    (passTerms cfg G).Safe (Reaches cfg v (·.hosts = wanted host)) (cfg.backend.reconcileHostAccess cfg.nqn host) w := by
  rcases cfg.access with h | h
  · rw [h]
    exact spdk_reconcileHostAccess_safe hv hhost
  · rw [h]
    exact kernel_reconcileHostAccess_safe hv hhost

end

end Distort.Fencing
