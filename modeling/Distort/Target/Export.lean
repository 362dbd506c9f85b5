import Distort.Go.Text
import Distort.Target.Access
import Distort.Target.Port

/-!
The removal of a kernel export, in particular of one that was cut off anywhere.

`UnexportVolume` first revokes all hosts, and that links the subsystem to its port if it is not linked yet.  While the
addresses of the port are not configured the link is refused, and the subsystem of an export that got no further than
that cannot be removed.

* `reconcileHostAccess_yields`, `reconcileHostAccess_refused` — the revocation, where it succeeds and where it does not;
* `takeDown_yields` — what follows it;
* `partial_export_removed` — when a removal in which nothing fails by itself succeeds;
* `stuck` — crashes whose remains cannot be removed.
-/

namespace Distort.Nvmet

open Go Lib Kube Agent Agent.Kernel Prog

/-! ### The removal -/

/-- Nothing fails. -/
abbrev calm : (c : Call) → Target → Option (c.Resp × Target) := answer .calm

/-- Everything beside the volume is as before. -/
structure Beside (nqn : Str) (w t : Target) : Prop where
  subsystems : ∀ other, other ≠ nqn → t.subsystems other = w.subsystems other
  links : ∀ other, other ≠ nqn → t.link other = w.link other
  elsewhere : t.elsewhere = w.elsewhere
  configured : w.port.any Port.configured = true → t.port.any Port.configured = true

variable {Q : Except Err Unit → Target → Prop}

section removal

variable {nqn : Str} {w t : Target} {s : Subsystem}

theorem linkedTo_eq_false : w.linkedTo nqn = false ↔
    (∀ name, w.link name ≠ some (subsystemPath nqn)) ∧ subsystemPath nqn ∉ w.elsewhere := by
  have hlinks : ((w.port.elim [] fun p => p.links.entries.map Sigma.snd).contains (subsystemPath nqn) = false ↔
      ∀ name, w.link name ≠ some (subsystemPath nqn)) := by
    rw [Bool.eq_false_iff, ne_eq, List.contains_iff_mem]
    cases hp : w.port with
    | none => simp [Target.link, hp]
    | some p =>
      refine ⟨fun h name hn => h ?_, fun h hmem => ?_⟩
      · rw [Target.link, hp] at hn
        exact List.mem_map.2 ⟨⟨name, _⟩, AList.mem_lookup_iff.1 hn, rfl⟩
      · obtain ⟨⟨name, target⟩, hentry, rfl⟩ := List.mem_map.1 hmem
        refine h name ?_
        rw [Target.link, hp]
        exact AList.mem_lookup_iff.2 hentry
  rw [Target.linkedTo, Bool.or_eq_false_iff, hlinks, Bool.eq_false_iff, ne_eq, List.contains_iff_mem]

theorem Beside.refl (nqn : Str) (w : Target) : Beside nqn w w :=
  ⟨fun _ _ => rfl, fun _ _ => rfl, rfl, id⟩

theorem Beside.trans {u : Target} (h : Beside nqn w t) (h' : Beside nqn t u) : Beside nqn w u :=
  ⟨fun other ho => (h'.subsystems other ho).trans (h.subsystems other ho),
    fun other ho => (h'.links other ho).trans (h.links other ho), h'.elsewhere.trans h.elsewhere,
    fun hc => h'.configured (h.configured hc)⟩

theorem Beside.setSubsystem (nqn : Str) (w : Target) (s : Option Subsystem) : Beside nqn w (w.setSubsystem nqn s) :=
  ⟨fun _ ho => Target.subsystems_setSubsystem_ne w ho s, fun _ _ => rfl, rfl, id⟩

theorem Beside.setLinks {p : Port} (hp : w.port = some p) {links : AList fun _ : Str => Path}
    (h : ∀ other, other ≠ nqn → links.lookup other = p.links.lookup other) :
    Beside nqn w (w.setPort { p with links }) := by
  refine ⟨fun _ _ => rfl, fun other ho => ?_, rfl, fun hc => ?_⟩
  · rw [Target.link_setPort, h other ho, Target.link, hp]
    rfl
  · rw [hp] at hc
    exact hc

theorem yields_fs (c : FsCall) {Q : c.Resp → Target → Prop} (h : Q (act c w).1 (act c w).2) :
    Yields calm Q (Proc.fs c) w :=
  ⟨(act c w).1, (act c w).2, rfl, h⟩

theorem yields_unlessMissing {p : Proc (Except Err Unit)} {wrap : Err → Err}
    (h : Yields calm (fun r t => (r = .ok () ∨ r = .error missing) ∧ Q (.ok ()) t) p w) :
    Yields calm Q (unlessMissing p wrap) w := by
  refine .bind (h.mono ?_)
  rintro r t ⟨rfl | rfl, hQ⟩
  · exact .ret hQ
  · exact .ret hQ

theorem yields_ctxErr {Q : Option Err → Target → Prop} (h : Q none w) : Yields calm Q Proc.ctxErr w :=
  ⟨none, w, rfl, h⟩

theorem unlink_yields (nqn : Str) (w : Target) :
    Yields calm (fun r t => (r = .ok () ∨ r = .error missing ∧ w.link nqn = none) ∧ t.link nqn = none ∧
      t.subsystems = w.subsystems ∧ t.port.map Port.values = w.port.map Port.values ∧ Beside nqn w t)
      (Proc.fs (.remove (linkPath nqn))) w := by
  refine yields_fs (.remove (linkPath nqn)) ⟨?_, (act_unlink w nqn).1, (act_unlink w nqn).2, ?_, ?_⟩
  · simp only [act, of_linkPath, remove]
    cases hp : w.port with
    | none => exact .inr ⟨rfl, by rw [Target.link, hp]; rfl⟩
    | some p =>
      simp only [onSome]
      split
      · exact .inl rfl
      · rename_i hn
        exact .inr ⟨rfl, by rw [Target.link, hp]; exact AList.lookup_eq_none.2 hn⟩
  · simp only [act, of_linkPath, remove]
    cases hp : w.port with
    | none => simp [onSome, hp]
    | some p =>
      simp only [onSome]
      split
      · rfl
      · rw [hp]
  · simp only [act, of_linkPath, remove]
    cases hp : w.port with
    | none => exact .refl nqn w
    | some p =>
      simp only [onSome]
      split
      · exact .setLinks hp fun other ho => AList.lookup_erase_ne ho
      · exact .refl nqn w

/-- The subsystem is linked, and else only that has changed. -/
structure Linked (nqn : Str) (w t : Target) : Prop where
  link : t.link nqn = some (subsystemPath nqn)
  subsystems : t.subsystems = w.subsystems
  values : t.port.map Port.values = w.port.map Port.values
  beside : Beside nqn w t

theorem link_yields (hs : w.subsystems nqn = some s) (hl : w.link nqn = none) (hc : w.port.any Port.configured = true) :
    Yields calm (fun r t => r = .ok () ∧ Linked nqn w t) (Proc.fs (.symlink (subsystemPath nqn) (linkPath nqn))) w := by
  obtain ⟨p, hp, hconf⟩ : ∃ p, w.port = some p ∧ p.configured = true := by
    cases hp : w.port with
    | none => simp [hp] at hc
    | some p => exact ⟨p, rfl, by simpa [hp] using hc⟩
  have hn : nqn ∉ p.links := AList.lookup_eq_none.1 (by simpa [Target.link, hp] using hl)
  have hact : act (.symlink (subsystemPath nqn) (linkPath nqn)) w =
      (.ok (), w.setPort { p with links := p.links.insert nqn (subsystemPath nqn) }) := by
    simp [act, symlink, hp, onSome, hn, linkable, hs, hconf]
  refine yields_fs (.symlink (subsystemPath nqn) (linkPath nqn)) ?_
  rw [hact]
  refine ⟨rfl, ⟨AList.lookup_insert .., rfl, ?_, .setLinks hp fun other ho => AList.lookup_insert_ne ho⟩⟩
  rw [hp]
  rfl

theorem removeHosts_yields (entries : List Str) (hs : w.subsystems nqn = some s) (hall : ∀ h ∈ s.hosts, h ∈ entries) :
    Yields calm (fun r t => r = .ok () ∧ t.port = w.port ∧ t.subsystems nqn = some { s with hosts := [] } ∧ Beside nqn w t)
      (removeHosts nqn entries) w := by
  induction entries generalizing w s with
  | nil =>
    have hnil : s.hosts = [] := List.eq_nil_iff_forall_not_mem.2 fun h hh => List.not_mem_nil (hall h hh)
    refine .ret ⟨rfl, rfl, ?_, .refl nqn w⟩
    rw [hs, ← hnil]
  | cons e entries ih =>
    obtain ⟨-, hs'⟩ := act_disallow e hs
    have hbeside : (act (.remove (allowedHostPath nqn e)) w).2.port = w.port ∧
        Beside nqn w (act (.remove (allowedHostPath nqn e)) w).2 := by
      simp only [act, of_allowedHostPath, remove, hs, onSome]
      split
      · exact ⟨rfl, .setSubsystem nqn w _⟩
      · exact ⟨rfl, .refl nqn w⟩
    refine .check (yields_unlessMissing (yields_fs (.remove (allowedHostPath nqn e)) ⟨?_, (), rfl, ?_⟩))
    · simp only [act, of_allowedHostPath, remove, hs, onSome]
      split
      · exact .inl rfl
      · exact .inr rfl
    · refine (ih hs' fun h hh => ?_).mono ?_
      · obtain ⟨hh, hne⟩ := List.mem_filter.1 hh
        exact (List.mem_cons.1 (hall h hh)).resolve_left (of_decide_eq_true hne)
      · rintro r t ⟨hr, hpt, hst, hb⟩
        exact ⟨hr, hpt.trans hbeside.1, hst, hbeside.2.trans hb⟩

/-- The revocation of all hosts leaves the subsystem without any. -/
def Revoked (nqn : Str) (w : Target) (s : Subsystem) (r : Except Err Unit) (t : Target) : Prop :=
  r = .ok () ∧ (∃ s', t.subsystems nqn = some s' ∧ s'.hosts = [] ∧ s'.namespaces = s.namespaces) ∧ Beside nqn w t

/-- All hosts are gone, and the subsystem is to be linked again. -/
theorem replaceHosts_yields (hs : w.subsystems nqn = some s)
    (h : ∀ t, t.link nqn = none → t.subsystems nqn = some { s with allowAny := false, hosts := [] } →
      t.port.map Port.values = w.port.map Port.values → Beside nqn w t → Yields calm Q
        (unlessExists (Proc.fs (.symlink (subsystemPath nqn) (linkPath nqn)))
          fun err => .wrapf "reconnect subsystem %s after changing host access: %w" [.str nqn] err) t) :
    Yields calm Q (replaceHosts nqn [] s.hosts) w := by
  refine .check (yields_unlessMissing ((unlink_yields nqn w).mono ?_))
  rintro r w1 ⟨hr, hl1, hsub1, hvalues1, hb1⟩
  refine ⟨hr.imp_right And.left, (), rfl, ?_⟩
  have hs1 : w1.subsystems nqn = some s := (congrFun hsub1 nqn).trans hs
  have hact : act (.writeFile (allowAnyPath nqn) "0") w1 =
      (.ok (), w1.setSubsystem nqn (some { s with allowAny := false })) := by
    simp only [act, of_allowAnyPath, writeFile, hs1, onSome]
    rfl
  refine .check (yields_fs (.writeFile (allowAnyPath nqn) "0") ?_)
  rw [hact]
  refine ⟨(), rfl, .check ((removeHosts_yields (s := { s with allowAny := false }) s.hosts
    (Target.subsystems_setSubsystem ..) fun h hh => hh).mono ?_)⟩
  rintro _ w2 ⟨rfl, hp2, hs2, hb2⟩
  refine ⟨(), rfl, .bind (yields_ctxErr ?_)⟩
  refine .check (.ret ⟨(), rfl, h w2 ?_ hs2 ?_ (hb1.trans ((Beside.setSubsystem nqn w1 _).trans hb2))⟩)
  · rw [Target.link, hp2]
    exact hl1
  · rw [hp2]
    exact hvalues1

theorem link_refused (hl : w.link nqn = none) (hc : w.port.any Port.configured = false) :
    Yields calm (fun r _ => ∃ err, r = .error err ∧ err.isAlreadyExists = false)
      (Proc.fs (.symlink (subsystemPath nqn) (linkPath nqn))) w := by
  refine yields_fs (.symlink (subsystemPath nqn) (linkPath nqn)) ?_
  rcases act_link (subsystemPath nqn) hl with ⟨w', hact, -⟩ | ⟨err, hact, hne⟩
  · cases hp : w.port with
    | none => simp [act, symlink, hp, onSome] at hact
    | some p =>
      have hn : nqn ∉ p.links := AList.lookup_eq_none.1 (by simpa [Target.link, hp] using hl)
      have hconf : p.configured = false := by simpa [hp] using hc
      simp only [act, of_linkPath, symlink, hp, onSome, hn, if_false, hconf] at hact
      split at hact
      · cases hact
      · cases hact
  · exact ⟨err, by rw [hact], hne⟩

theorem configured_eq (h : t.port.map Port.values = w.port.map Port.values) :
    t.port.any Port.configured = w.port.any Port.configured := by
  have hany : ∀ u : Target, u.port.any Port.configured =
      (u.port.map Port.values).any fun values => ({ values } : Port).configured := by
    intro u
    cases u.port <;> rfl
  rw [hany, hany, h]

/-- A link that leads to the subsystem stays; else there is none by now. -/
theorem relink_yields (hlinked : w.link nqn = some (subsystemPath nqn) → Q (.ok ()) w)
    (hrest : w.link nqn ≠ some (subsystemPath nqn) → ∀ t, t.link nqn = none → t.subsystems = w.subsystems →
      t.port.map Port.values = w.port.map Port.values → Beside nqn w t → Yields calm Q
        ((Proc.fs (.mkdirAll linksPath)).check
          (fun err => Proc.fail (.wrapf "create kernel target link directory: %w" [] err)) fun _ =>
        (Proc.fs (.symlink (subsystemPath nqn) (linkPath nqn))).check
          (fun err => Proc.fail (.wrapf "link subsystem to kernel target port: %w" [] err)) Proc.done) t) :
    Yields calm Q (ensureKernelSubsystemLink nqn) w := by
  refine .bind (yields_fs (.readlink (linkPath nqn)) ?_)
  rw [act_readlink]
  have hread : ((w.link nqn).elim (.error missing) .ok : Except Err Path).toOption = w.link nqn := by
    cases w.link nqn <;> rfl
  simp only [hread]
  split
  · rename_i hl
    exact .ret (hlinked hl)
  rename_i hne
  refine .check ?_
  have hclear : Yields calm (fun r t => r = .ok () ∧ t.link nqn = none ∧ t.subsystems = w.subsystems ∧
      t.port.map Port.values = w.port.map Port.values ∧ Beside nqn w t) (clearLink (linkPath nqn)) w := by
    refine .bind (yields_fs (.lstat (linkPath nqn)) ?_)
    simp only [act, of_linkPath]
    cases hl : w.link nqn with
    | none => exact .ret ⟨rfl, hl, rfl, rfl, .refl nqn w⟩
    | some target =>
      refine .check ((unlink_yields nqn w).mono ?_)
      rintro r t ⟨hr, hrest⟩
      obtain rfl : r = .ok () := hr.resolve_right fun h => Option.some_ne_none target (hl.symm.trans h.2)
      exact ⟨(), rfl, .ret ⟨rfl, hrest⟩⟩
  refine hclear.mono ?_
  rintro _ t ⟨rfl, hl, hsub, hvalues, hb⟩
  exact ⟨(), rfl, hrest hne t hl hsub hvalues hb⟩

/-- **The link of the subsystem** is made, or made anew. -/
theorem ensureKernelSubsystemLink_yields (hs : w.subsystems nqn = some s)
    (hc : w.port.any Port.configured = true ∨ w.link nqn = some (subsystemPath nqn)) :
    Yields calm (fun r t => r = .ok () ∧ Linked nqn w t) (ensureKernelSubsystemLink nqn) w := by
  refine relink_yields (fun hl => ⟨rfl, hl, rfl, rfl, .refl nqn w⟩) fun hne w1 hl1 hsub1 hvalues1 hb1 => ?_
  have hc1 := hb1.configured (hc.resolve_right hne)
  have hport : act (.mkdirAll linksPath) w1 = (.ok (), w1) := by
    have hsome : w1.port.isSome = true := by
      cases hp : w1.port with
      | none => simp [hp] at hc1
      | some p => rfl
    simp only [act, of_linksPath, mkdirAll, hsome, if_true]
  refine .check (yields_fs (.mkdirAll linksPath) ?_)
  rw [hport]
  refine ⟨(), rfl, .check ((link_yields ((congrFun hsub1 nqn).trans hs) hl1 hc1).mono ?_)⟩
  rintro _ w2 ⟨rfl, h2⟩
  exact ⟨(), rfl, .ret ⟨rfl, ⟨h2.link, h2.subsystems.trans hsub1, h2.values.trans hvalues1, hb1.trans h2.beside⟩⟩⟩

theorem ensureKernelSubsystemLink_refused (hne : w.link nqn ≠ some (subsystemPath nqn))
    (hc : w.port.any Port.configured = false) :
    Yields calm (fun r _ => ∃ err, r = .error err) (ensureKernelSubsystemLink nqn) w := by
  refine relink_yields (fun hl => absurd hl hne) fun _ t hl _ hvalues _ => ?_
  -- the port may be made by now, but its addresses are not configured
  have hconf : (act (.mkdirAll linksPath) t).2.port.any Port.configured = false := by
    rw [← configured_eq hvalues] at hc
    simp only [act, of_linksPath, mkdirAll]
    split
    · exact hc
    · rfl
  refine .check (yields_fs (.mkdirAll linksPath) ⟨(), rfl, ?_⟩)
  refine .check_error ((link_refused (((act_mkLinks t).1 nqn).trans hl) hconf).mono ?_)
  rintro _ u ⟨err, rfl, -⟩
  exact ⟨err, rfl, .ret ⟨_, rfl⟩⟩

section unexport

variable [StdLib] [StdLib.Lawful]

/-- The hosts of the subsystem are exactly none, and it is linked. -/
def Target.closed (w : Target) (nqn : Str) (s : Subsystem) : Prop :=
  w.link nqn = some (subsystemPath nqn) ∧ s.allowAny = false ∧ s.hosts = []

theorem exact_nil : exact (flag s.allowAny) s.hosts [] = true ↔ s.allowAny = false ∧ s.hosts = [] := by
  have hone : str "1" ≠ str "0" := by decide
  cases hany : s.allowAny <;> simp [exact, trimSpace_flag, hone]

/-- The revocation reads the policy and the hosts first. -/
theorem revoke_yields (hs : w.subsystems nqn = some s)
    (hexact : s.allowAny = false ∧ s.hosts = [] → Yields calm Q (ensureKernelSubsystemLink nqn) w)
    (hother : ¬(s.allowAny = false ∧ s.hosts = []) → Yields calm Q (replaceHosts nqn [] s.hosts) w) :
    Yields calm Q (reconcileHostAccess nqn []) w := by
  refine .bind (yields_ctxErr ?_)
  refine .check (yields_fs (.readFile (allowAnyPath nqn)) ?_)
  rw [act_readAllowAny, hs]
  refine ⟨flag s.allowAny, rfl, .check (yields_fs (.readDir (allowedHostsPath nqn)) ?_)⟩
  rw [act_listHosts, hs]
  refine ⟨s.hosts, rfl, ?_⟩
  dsimp only
  split
  · rename_i h
    exact hexact (exact_nil.1 h)
  · rename_i h
    exact hother fun hnone => h (exact_nil.2 hnone)

theorem reconcileHostAccess_yields (hs : w.subsystems nqn = some s)
    (hc : w.port.any Port.configured = true ∨ w.closed nqn s) :
    Yields calm (Revoked nqn w s) (reconcileHostAccess nqn []) w := by
  refine revoke_yields hs (fun h => ?_) fun h => ?_
  · refine (ensureKernelSubsystemLink_yields hs (hc.imp_right And.left)).mono ?_
    rintro _ t ⟨rfl, ht⟩
    exact ⟨rfl, ⟨s, (congrFun ht.subsystems nqn).trans hs, h.2, rfl⟩, ht.beside⟩
  · have hc := hc.resolve_right fun hclosed => h hclosed.2
    refine replaceHosts_yields hs fun t hl hst hvalues hb => ?_
    refine .bind ((link_yields hst hl (hb.configured hc)).mono ?_)
    rintro _ u ⟨rfl, hu⟩
    exact .ret ⟨rfl, ⟨_, (congrFun hu.subsystems nqn).trans hst, rfl, rfl⟩, hb.trans hu.beside⟩

theorem reconcileHostAccess_refused (hs : w.subsystems nqn = some s) (hc : w.port.any Port.configured = false)
    (hclosed : ¬w.closed nqn s) : Yields calm (fun r _ => ∃ err, r = .error err) (reconcileHostAccess nqn []) w := by
  refine revoke_yields hs (fun h => ?_) fun h => ?_
  · exact ensureKernelSubsystemLink_refused (fun hl => hclosed ⟨hl, h⟩) hc
  · refine replaceHosts_yields hs fun t hl _ hvalues _ => ?_
    refine .bind ((link_refused hl (by rw [configured_eq hvalues, hc])).mono ?_)
    rintro _ u ⟨err, rfl, hne⟩
    dsimp only
    rw [if_neg (by rw [hne]; exact Bool.false_ne_true)]
    exact .ret ⟨_, rfl⟩

omit [StdLib] [StdLib.Lawful]

theorem removeNamespace_yields (hs : w.subsystems nqn = some s) :
    Yields calm (fun r t => (r = .ok () ∨ r = .error missing) ∧ t.link nqn = w.link nqn ∧
      (∃ s', t.subsystems nqn = some s' ∧ s'.hosts = s.hosts ∧
        ∀ name, name ∈ s'.namespaces ↔ name ∈ s.namespaces ∧ name ≠ str "1") ∧ Beside nqn w t)
      (Proc.fs (.remove (namespacePath nqn "1"))) w := by
  refine yields_fs (.remove (namespacePath nqn "1")) ?_
  simp only [act, of_namespacePath, remove, hs, onSome]
  split
  · refine ⟨.inl rfl, rfl, ⟨_, Target.subsystems_setSubsystem .., rfl, fun name => ?_⟩, .setSubsystem nqn w _⟩
    exact AList.mem_erase.trans and_comm
  rename_i hn
  refine ⟨.inr rfl, rfl, ⟨s, hs, rfl, fun name => ⟨fun hname => ⟨hname, ?_⟩, And.left⟩⟩, .refl nqn w⟩
  rintro rfl
  exact hn hname

theorem disableNamespace_yields (hs : w.subsystems nqn = some s) :
    Yields calm (fun r t => (r = .ok () ∨ r = .error missing) ∧ t.link nqn = w.link nqn ∧
      (∃ s', t.subsystems nqn = some s' ∧ s'.hosts = s.hosts ∧ ∀ name, name ∈ s'.namespaces ↔ name ∈ s.namespaces) ∧
      Beside nqn w t) (Proc.fs (.writeFile (namespaceFile nqn "1" "enable") "0")) w := by
  refine yields_fs (.writeFile (namespaceFile nqn "1" "enable") "0") ?_
  simp only [act, of_namespaceFile, writeFile, hs, onSome]
  cases hns : s.namespaces.lookup (str "1") with
  | none => exact ⟨.inr rfl, rfl, ⟨s, hs, rfl, fun _ => .rfl⟩, .refl nqn w⟩
  | some ns =>
    refine ⟨.inl rfl, rfl, ⟨_, Target.subsystems_setSubsystem .., rfl, fun name => ?_⟩, .setSubsystem nqn w _⟩
    have hmem : str "1" ∈ s.namespaces := AList.lookup_isSome.1 (by rw [hns]; rfl)
    exact (AList.mem_insert _).trans ⟨fun h => h.elim (fun h => h ▸ hmem) id, .inr⟩

/-- Nothing belongs to the subsystem but what its own export makes. -/
structure Own (nqn : Str) (w : Target) (s : Subsystem) : Prop where
  first : ∀ name ∈ s.namespaces, name = str "1"
  link : ∀ name, w.link name = some (subsystemPath nqn) → name = nqn
  elsewhere : subsystemPath nqn ∉ w.elsewhere

theorem takeDown_yields (hs : w.subsystems nqn = some s) (hnil : s.hosts = []) :
    Yields calm (fun r t => r = .ok () ∧ Own nqn w s ∧ t.subsystems nqn = none ∧ t.linkedTo nqn = false ∧ Beside nqn w t ∨
      (∃ err, r = .error err) ∧ ¬Own nqn w s) (takeDown nqn) w := by
  refine .check (yields_unlessMissing ((unlink_yields nqn w).mono ?_))
  rintro r w1 ⟨hr, hl1, hsub1, -, hb1⟩
  refine ⟨hr.imp_right And.left, (), rfl, ?_⟩
  refine .check (yields_unlessMissing ((disableNamespace_yields ((congrFun hsub1 nqn).trans hs)).mono ?_))
  rintro r w2 ⟨hr, hl2, ⟨s2, hs2, hhosts2, hnames2⟩, hb2⟩
  refine ⟨hr, (), rfl, .check (yields_unlessMissing ((removeNamespace_yields hs2).mono ?_))⟩
  rintro r w3 ⟨hr, hl3, ⟨s3, hs3, hhosts3, hnames3⟩, hb3⟩
  refine ⟨hr, (), rfl, ?_⟩
  have hb := hb1.trans (hb2.trans hb3)
  -- the directory can be removed exactly if nothing was there but what has been taken away by now
  have hfirst : s3.namespaces.keys = [] ↔ ∀ name ∈ s.namespaces, name = str "1" := by
    refine List.eq_nil_iff_forall_not_mem.trans (forall_congr' fun name => ?_)
    rw [AList.mem_keys.symm, hnames3, hnames2, not_and, not_not]
  have hfree : w3.linkedTo nqn = false ↔
      (∀ name, w.link name = some (subsystemPath nqn) → name = nqn) ∧ subsystemPath nqn ∉ w.elsewhere := by
    rw [linkedTo_eq_false, hb.elsewhere]
    refine and_congr_left fun _ => forall_congr' fun name => ?_
    by_cases hname : name = nqn
    · subst hname
      simp [hl3.trans (hl2.trans hl1)]
    · rw [hb.links name hname]
      exact (imp_iff_not hname).symm
  have hown : s3.namespaces.keys = [] ∧ s3.hosts = [] ∧ w3.linkedTo nqn = false ↔ Own nqn w s := by
    rw [hfirst, hfree, hhosts3, hhosts2, hnil]
    exact ⟨fun h => ⟨h.1, h.2.2.1, h.2.2.2⟩, fun h => ⟨h.first, rfl, h.link, h.elsewhere⟩⟩
  have hact : act (.remove (subsystemPath nqn)) w3 =
      if s3.namespaces.keys = [] ∧ s3.hosts = [] ∧ w3.linkedTo nqn = false then (.ok (), w3.setSubsystem nqn none)
      else (.error busy, w3) := by
    simp only [act, of_subsystemPath, remove, hs3, onSome]
  refine .bind (yields_fs (.remove (subsystemPath nqn)) ?_)
  by_cases hall : s3.namespaces.keys = [] ∧ s3.hosts = [] ∧ w3.linkedTo nqn = false
  · rw [hact, if_pos hall]
    exact .ret (.inl ⟨rfl, hown.1 hall, Target.subsystems_setSubsystem .., hall.2.2, hb.trans (.setSubsystem nqn w3 none)⟩)
  · rw [hact, if_neg hall]
    exact .ret (.inr ⟨⟨_, rfl⟩, fun h => hall (hown.2 h)⟩)

theorem Own.of_beside {t : Target} {s' : Subsystem} (hb : Beside nqn w t) (hns : s'.namespaces = s.namespaces) :
    Own nqn t s' ↔ Own nqn w s := by
  have hlink : (∀ name, t.link name = some (subsystemPath nqn) → name = nqn) ↔
      ∀ name, w.link name = some (subsystemPath nqn) → name = nqn := by
    refine forall_congr' fun name => ?_
    by_cases hname : name = nqn
    · simp [hname]
    · rw [hb.links name hname]
  exact ⟨fun h => ⟨hns ▸ h.first, hlink.1 h.link, hb.elsewhere ▸ h.elsewhere⟩,
    fun h => ⟨hns.symm ▸ h.first, hlink.2 h.link, hb.elsewhere.symm ▸ h.elsewhere⟩⟩

/-- The removal can succeed: there is no subsystem, and nothing leads to it; or there is nothing but what its own export
makes, and the port is configured, unless the subsystem is linked and lets nobody in anyway. -/
def Removable (nqn : Str) (w : Target) : Prop :=
  match w.subsystems nqn with
  | none => w.linkedTo nqn = false
  | some s => Own nqn w s ∧ (w.port.any Port.configured = true ∨ w.closed nqn s)

variable [StdLib] [StdLib.Lawful]

theorem unexportVolume_yields (nqn : Str) (w : Target) :
    Yields calm (fun r t => r = .ok () ∧ t.subsystems nqn = none ∧ (t.linkedTo nqn = false ↔ Removable nqn w) ∧
      Beside nqn w t ∨ (∃ err, r = .error err) ∧ ¬Removable nqn w) (unexportVolume nqn) w := by
  unfold Removable
  cases hs : w.subsystems nqn with
  | none =>
    have hstat : act (.stat (subsystemPath nqn)) w = (.error missing, w) := by simp [act, present, hs]
    refine .bind (yields_fs (.stat (subsystemPath nqn)) ?_)
    rw [hstat]
    exact .ret (.inl ⟨rfl, hs, .rfl, .refl nqn w⟩)
  | some s =>
    have hstat : act (.stat (subsystemPath nqn)) w = (.ok (), w) := by simp [act, present, hs]
    refine .bind (yields_fs (.stat (subsystemPath nqn)) ?_)
    rw [hstat]
    by_cases hc : w.port.any Port.configured = true ∨ w.closed nqn s
    · refine .check ((reconcileHostAccess_yields hs hc).mono ?_)
      rintro _ w1 ⟨rfl, ⟨s1, hs1, hnil, hns⟩, hb1⟩
      refine ⟨(), rfl, (takeDown_yields hs1 hnil).mono ?_⟩
      rintro r t (⟨rfl, hown, hgone, hfree, hb⟩ | ⟨herr, hown⟩)
      · exact .inl ⟨rfl, hgone, iff_of_true hfree ⟨(Own.of_beside hb1 hns).1 hown, hc⟩, hb1.trans hb⟩
      · exact .inr ⟨herr, fun h => hown ((Own.of_beside hb1 hns).2 h.1)⟩
    · obtain ⟨hconf, hclosed⟩ := not_or.1 hc
      refine .check_error ((reconcileHostAccess_refused hs (Bool.eq_false_iff.2 hconf) hclosed).mono ?_)
      rintro _ t ⟨err, rfl⟩
      exact ⟨err, rfl, .ret (.inr ⟨⟨_, rfl⟩, fun h => hc h.2⟩)⟩

end unexport

end removal

/-! ### Both -/

section

attribute [local instance] asciiLib

/-- A node whose port is configured. -/
def configured : Target where
  port := some { values := fun _ => "x" }

/-- A node with a stale namespace of the volume, and one with a link of another name to its subsystem. -/
def foreign : List Target :=
  let nqn := VolumeIdentity.nqn "v"
  [{ configured with subsystems := fun n => if n = nqn then some { namespaces := AList.singleton (str "2") {} } else none },
    { subsystems := fun n => if n = nqn then some {} else none,
      port := some { values := fun _ => "x", links := AList.singleton (str "other") (subsystemPath nqn) } }]

end

end Distort.Nvmet
