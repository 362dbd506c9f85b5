import Mathlib.Data.Set.Basic
import Distort.Agent.BackendSpdk
import Distort.Go.Text
import Distort.Lib.Run
import Distort.Target.Nvmet

/-!
A change of the hosts that a subsystem lets in, wherever it is cut off.

From any state of the subsystem and with calls that may fail at any point, with or without their effect, neither
backend lets in a host that was not let in before, unless it is the wanted one alone; a call that succeeds
leaves exactly the wanted host.

* `Nvmet.reconcileHostAccess_holds` — the kernel target: unlink, edit, link again;
* `SpdkTarget.reconcileHostAccess_holds` — SPDK: take away, then add;
* `access_never_widens` — both of them, at every moment of every run.
-/

namespace Distort

open Go Lib Kube Agent Prog

/-- The hosts that a subsystem is to let in. -/
def wantedHosts (host : Str) : List Str := if host = [] then [] else [host]

/-! ### The kernel target -/

namespace Nvmet

open Agent.Kernel

namespace Target

variable (w : Target)

/-- The subsystem is linked to its port. -/
def linked (nqn : Str) : Prop := w.link nqn = some (subsystemPath nqn)

/-- The hosts that get in. -/
def admits (nqn : Str) : Set Str :=
  { h | w.linked nqn ∧ ∃ s, w.subsystems nqn = some s ∧ (s.allowAny = true ∨ h ∈ s.hosts) }

/-- The wanted host alone is allowed. -/
def exactly (nqn host : Str) : Prop :=
  ∃ s, w.subsystems nqn = some s ∧ s.allowAny = false ∧ s.hosts = wantedHosts host

/-- From a target: no host gets in that did not before, unless it is the wanted one alone. -/
def noWider (w₀ : Target) (nqn host : Str) (w : Target) : Prop := w.admits nqn ⊆ w₀.admits nqn ∨ w.exactly nqn host

/-- The subsystem is not linked, and these hosts are allowed. -/
def apart (nqn : Str) (s : Subsystem) : Prop := w.link nqn = none ∧ w.subsystems nqn = some s

/-- The wanted host alone is allowed, and the subsystem is not linked. -/
def ready (nqn host : Str) : Prop := w.link nqn = none ∧ w.exactly nqn host

/-- The wanted host alone gets in. -/
def settled (nqn host : Str) : Prop := w.linked nqn ∧ w.exactly nqn host

theorem exactly.of_subsystems {w w' : Target} {nqn host : Str} (h : w.exactly nqn host)
    (hsame : w'.subsystems = w.subsystems) : w'.exactly nqn host := by
  rw [exactly, hsame]
  exact h

theorem admits_of_unlinked {w : Target} {nqn : Str} (h : w.link nqn = none) : w.admits nqn = ∅ := by
  refine Set.eq_empty_of_forall_notMem ?_
  rintro x ⟨hl, -⟩
  rw [linked, h] at hl
  cases hl

end Target

/-! The whole change. -/

section change

variable {I : Target → Prop} {w : Target} {nqn host : Str} {s : Subsystem}
  (hquiet : ∀ t : Target, t.link nqn = none → I t) (hexact : ∀ t : Target, t.exactly nqn host → I t)

include hquiet

theorem removeHosts_holds (entries : List Str) (hw : w.apart nqn s) (hany : s.allowAny = false)
    (hall : ∀ h ∈ s.hosts, h ∈ entries) : (removeHosts nqn entries).Holds server I
      (OnOk fun _ t => ∃ s', t.apart nqn s' ∧ s'.allowAny = false ∧ s'.hosts = []) w := by
  induction entries generalizing w s with
  | nil =>
    refine .ret (hquiet w hw.1) (onOk_ok ⟨s, hw, hany, ?_⟩)
    exact List.eq_nil_iff_forall_not_mem.2 fun h hh => List.not_mem_nil (hall h hh)
  | cons e entries ih =>
    obtain ⟨hl, hs⟩ := act_disallow e hw.2
    have hnone : (act (.remove (allowedHostPath nqn e)) w).2.link nqn = none := hl.trans hw.1
    refine .try ((holds_remove (K := fun t => t.apart nqn _) (hquiet w hw.1) (hquiet _ hnone) ⟨hnone, hs⟩).mono ?_)
    rintro r t - hr a rfl
    refine ih (hr a rfl) hany fun h hh => ?_
    obtain ⟨hh, hne⟩ := List.mem_filter.1 hh
    exact (List.mem_cons.1 (hall h hh)).resolve_left (of_decide_eq_true hne)

theorem authorizeHost_holds (hw : w.apart nqn s) (hany : s.allowAny = false) (hnil : s.hosts = []) :
    (authorizeHost nqn host).Holds server I (OnOk fun _ t => t.ready nqn host) w := by
  unfold authorizeHost
  split
  · rename_i hne
    have hmk : (act (.mkdir (hostPath host)) w).2.apart nqn s := by
      simp only [act, of_hostPath, mkdir]
      split <;> exact hw
    refine .try (holds_unless (K := fun t => t.apart nqn s) ?_ |>.mono ?_)
    · refine holds_fs (hquiet w hw.1) (hquiet _ hmk.1) (fun _ => hmk) ?_
      rintro err t - (rfl | rfl) -
      · exact hw
      · exact hmk
    · rintro r t - hr a rfl
      have ht := hr a rfl
      refine holds_symlink (hquiet t ht.1) ?_
      rcases act_allow (hostPath host) ht.2 hnil with ⟨t', heq, hl, hs⟩ | hfail
      · have hnone : t'.link nqn = none := hl.trans ht.1
        exact .inl ⟨t', heq, hquiet t' hnone, hnone, _, hs, hany, by simp [wantedHosts, hne]⟩
      · exact .inr hfail
  · rename_i hnil'
    exact .ret (hquiet w hw.1) (onOk_ok ⟨hw.1, s, hw.2, hany, by simpa [wantedHosts, Classical.not_not.1 hnil'] using hnil⟩)

include hexact

theorem replaceHosts_holds (hI : I w) (hs : w.subsystems nqn = some s) :
    (replaceHosts nqn host s.hosts).Holds server I (OnOk fun _ t => t.settled nqn host) w := by
  obtain ⟨hnone, hsame⟩ := act_unlink w nqn
  refine .try ((holds_remove (K := fun t => t.apart nqn s) hI (hquiet _ hnone)
    ⟨hnone, (congrFun hsame nqn).trans hs⟩).mono ?_)
  rintro r w1 - hr a rfl
  have h1 := hr a rfl
  have hact : act (.writeFile (allowAnyPath nqn) "0") w1 =
      (.ok (), w1.setSubsystem nqn (some { s with allowAny := false })) := by
    simp only [act, of_allowAnyPath, writeFile, h1.2, onSome]
    rfl
  -- all hosts go while the subsystem is not linked
  refine .try (holds_fs (hquiet w1 h1.1) (hquiet _ (by rw [hact]; exact h1.1)) ?_
    fun err _ _ _ => onOk_error err)
  rw [hact]
  have hw1 : (w1.setSubsystem nqn (some { s with allowAny := false })).apart nqn { s with allowAny := false } :=
    ⟨h1.1, Target.subsystems_setSubsystem ..⟩
  refine onOk_ok (.try ((removeHosts_holds hquiet s.hosts hw1 rfl fun h hh => hh).mono ?_))
  rintro r w2 - hr a rfl
  obtain ⟨s', h2, hany, hnil⟩ := hr a rfl
  refine .bind (holds_ctxErr (hquiet w2 h2.1) fun interrupted => ?_)
  cases interrupted with
  | some err => exact .ret (hquiet w2 h2.1) (onOk_error err)
  | none =>
    refine .try ((authorizeHost_holds hquiet h2 hany hnil).mono ?_)
    rintro r w3 - hr a rfl
    obtain ⟨hl, hx⟩ := hr a rfl
    refine holds_symlink (hquiet w3 hl) ?_
    rcases act_link (subsystemPath nqn) hl with ⟨w4, heq, hlink, hsub⟩ | hfail
    · have hx' := hx.of_subsystems hsub
      exact .inl ⟨w4, heq, hexact w4 hx', (hlink nqn).trans (if_pos rfl), hx'⟩
    · exact .inr hfail

omit hquiet

theorem clearLink_holds (hx : w.exactly nqn host) :
    (clearLink (linkPath nqn)).Holds server I (OnOk fun _ t => t.ready nqn host) w := by
  refine .bind (holds_look le_rfl (hexact w hx) rfl fun info hinfo => ?_)
  have hnot : ∀ err, info = .error err → err.isNotFound = true → w.link nqn = none := by
    rintro err rfl hn
    rcases hinfo with hinfo | ⟨e, hi, he⟩
    · simp only [act, of_linkPath] at hinfo
      cases hl : w.link nqn with
      | none => rfl
      | some t => simp [hl] at hinfo
    · cases he
      rw [(not_tolerated hi).1] at hn
      cases hn
  split
  · obtain ⟨hnone, hsame⟩ := act_unlink w nqn
    have hx' := hx.of_subsystems hsame
    exact .try (holds_fs (hexact w hx) (hexact _ hx')
      (fun _ _ => .ret (hexact _ hx') (onOk_ok ⟨hnone, hx'⟩)) fun err _ _ _ => onOk_error err)
  · exact .ret (hexact w hx) (onOk_error _)
  · split
    · exact .ret (hexact w hx) (onOk_ok ⟨hnot _ rfl ‹_›, hx⟩)
    · exact .ret (hexact w hx) (onOk_error _)

theorem ensureKernelSubsystemLink_holds (hx : w.exactly nqn host) :
    (ensureKernelSubsystemLink nqn).Holds server I (OnOk fun _ t => t.settled nqn host) w := by
  refine .bind (holds_look le_rfl (hexact w hx) rfl fun target htarget => ?_)
  rw [act_readlink] at htarget
  split
  · rename_i heq
    refine .ret (hexact w hx) (onOk_ok ⟨?_, hx⟩)
    rcases htarget with rfl | ⟨err, -, rfl⟩
    · cases hl : w.link nqn with
      | none => simp [hl, Except.toOption] at heq
      | some t => simpa [hl, Except.toOption, Target.linked] using heq
    · cases heq
  · refine .try ((clearLink_holds hexact hx).mono ?_)
    rintro r w1 - hr a rfl
    obtain ⟨hl, hx1⟩ := hr a rfl
    obtain ⟨hl2, hsame⟩ := act_mkLinks w1
    have hx2 := hx1.of_subsystems hsame
    refine .try (holds_fs (hexact w1 hx1) (hexact _ hx2) (fun a _ => ?_) fun _ _ _ _ => onOk_error _)
    rcases act_link (subsystemPath nqn) ((hl2 nqn).trans hl) with ⟨w3, heq, hlink, hsub⟩ | ⟨err, heq, -⟩
    · have hx3 := hx2.of_subsystems hsub
      refine .try (holds_fs (hexact _ hx2) (by rw [heq]; exact hexact _ hx3) ?_ fun _ _ _ _ => onOk_error _)
      rw [heq]
      exact onOk_ok (.ret (hexact _ hx3) (onOk_ok ⟨(hlink nqn).trans (if_pos rfl), hx3⟩))
    · refine .try (holds_fs (hexact _ hx2) (by rw [heq]; exact hexact _ hx2) ?_ fun _ _ _ _ => onOk_error _)
      rw [heq]
      exact onOk_error err

end change

section reconcile

variable [StdLib] [StdLib.Lawful]

theorem trimSpace_flag (b : Bool) : trimSpace (flag b) = if b then str "1" else str "0" := by
  have hflag : flag b = (if b then str "1" else str "0") ++ str "\n" := by cases b <;> rfl
  have hframed : framed (if b then str "1" else str "0") = true := by cases b <;> decide
  rw [hflag, trimSpace_append hframed (by decide)]

theorem exact_flag {b : Bool} {entries : List Str} {host : Str} (h : exact (flag b) entries host = true) :
    b = false ∧ entries = wantedHosts host := by
  simp only [exact, Bool.and_eq_true, decide_eq_true_eq] at h
  have hb : b = false := by
    have hzero := h.1
    rw [trimSpace_flag] at hzero
    cases b with
    | false => rfl
    | true => exact absurd hzero (by decide)
  refine ⟨hb, ?_⟩
  have hentries := h.2
  by_cases hh : host = []
  · simpa [wantedHosts, hh] using hentries
  · simpa [wantedHosts, hh] using hentries

/-- **The kernel target**: nobody else gets in on the way, and the wanted host alone at the end. -/
theorem reconcileHostAccess_holds (nqn host : Str) (w : Target) :
    (reconcileHostAccess nqn host).Holds server (w.noWider nqn host) (OnOk fun _ t => t.settled nqn host) w := by
  have hquiet : ∀ t : Target, t.link nqn = none → w.noWider nqn host t := by
    intro t ht
    rw [Target.noWider, Target.admits_of_unlinked ht]
    exact .inl (Set.empty_subset _)
  have hI : w.noWider nqn host w := .inl subset_rfl
  refine .bind (holds_ctxErr hI fun interrupted => ?_)
  cases interrupted with
  | some err => exact .ret hI (onOk_error err)
  | none =>
    refine .try (holds_look le_rfl hI rfl fun r hr allowAny hok => ?_)
    rw [act_readAllowAny] at hr
    refine .try (holds_look le_rfl hI rfl fun r' hr' entries hok' => ?_)
    rw [act_listHosts] at hr'
    obtain ⟨s, hs, rfl⟩ := answered hr hok
    obtain ⟨s', hs', rfl⟩ := answered hr' hok'
    obtain rfl : s = s' := Option.some.inj (hs.symm.trans hs')
    split
    · rename_i hx
      obtain ⟨hany, hhosts⟩ := exact_flag hx
      exact ensureKernelSubsystemLink_holds (fun t => .inr) ⟨s, hs, hany, hhosts⟩
    · exact replaceHosts_holds hquiet (fun t => .inr) hI hs

end reconcile

end Nvmet

/-! ### SPDK -/

/-- The subsystems of the SPDK target, as it lists them. -/
abbrev SpdkTarget : Type := List Subsystem

namespace SpdkTarget

open Agent.Spdk

def get (w : SpdkTarget) (nqn : Str) : Option Subsystem := w.find? fun s => s.nqn = nqn

/-- The hosts of a subsystem are changed. -/
def edit (w : SpdkTarget) (nqn : Str) (allowAnyHost : Bool → Bool) (hosts : List Str → List Str) : SpdkTarget :=
  w.map fun s => if s.nqn = nqn then { s with allowAnyHost := allowAnyHost s.allowAnyHost, hosts := hosts s.hosts } else s

theorem get_edit (w : SpdkTarget) (nqn : Str) (f : Bool → Bool) (g : List Str → List Str) :
    (w.edit nqn f g).get nqn = (w.get nqn).map fun s => { s with allowAnyHost := f s.allowAnyHost, hosts := g s.hosts } := by
  induction w with
  | nil => rfl
  | cons s w ih =>
    by_cases hs : s.nqn = nqn
    · simp [edit, get, hs]
    · simpa [edit, get, hs] using ih

/-- A host can be taken away only where it is, and given only where it is not. -/
def answer (ch : Nvmet.Choice) : (c : Call) → SpdkTarget → Option (c.Resp × SpdkTarget)
  | .rpc .nvmfGetSubsystems, w => ch.fate.answer w (.ok w, w)
  | .rpc (.nvmfSubsystemAllowAnyHost nqn), w => ch.fate.answer w (.ok (), w.edit nqn (fun _ => false) id)
  | .rpc (.nvmfSubsystemRemoveHost nqn host), w =>
    ch.fate.answer w (if (w.get nqn).any fun s => s.hosts.contains host then
      (.ok (), w.edit nqn id (List.filter fun h => h ≠ host)) else (.error Nvmet.invalid, w))
  | .rpc (.nvmfSubsystemAddHost nqn host), w =>
    ch.fate.answer w (if (w.get nqn).all fun s => s.hosts.contains host then (.error Nvmet.invalid, w)
      else (.ok (), w.edit nqn id (· ++ [host])))
  | .proc .ctxErr, w => some (ch.interrupted, w)
  | _, _ => none

/-- Anything may fail, and the context may be done at any moment. -/
def server : Server Call Call.Resp SpdkTarget := .of answer

/-- The hosts that get in. -/
def admits (w : SpdkTarget) (nqn : Str) : Set Str :=
  { h | ∃ s, w.get nqn = some s ∧ (s.allowAnyHost = true ∨ h ∈ s.hosts) }

/-- The wanted host alone gets in. -/
def exactly (w : SpdkTarget) (nqn host : Str) : Prop :=
  ∃ s, w.get nqn = some s ∧ s.allowAnyHost = false ∧ s.hosts = wantedHosts host

/-- From a target: no host gets in that did not before, unless it is the wanted one alone. -/
def noWider (w₀ : SpdkTarget) (nqn host : Str) (w : SpdkTarget) : Prop :=
  w.admits nqn ⊆ w₀.admits nqn ∨ w.exactly nqn host

/-- Only some of these hosts get in. -/
def within (w : SpdkTarget) (nqn : Str) (hosts : List Str) : Prop :=
  ∃ s, w.get nqn = some s ∧ s.allowAnyHost = false ∧ ∀ h ∈ s.hosts, h ∈ hosts

theorem within_edit {w : SpdkTarget} {nqn : Str} {hosts : List Str} {f : Bool → Bool} {g : List Str → List Str}
    {s : Subsystem} (hs : w.get nqn = some s) (hany : f s.allowAnyHost = false) (hg : ∀ h ∈ g s.hosts, h ∈ hosts) :
    (w.edit nqn f g).within nqn hosts :=
  ⟨_, by rw [get_edit, hs]; rfl, hany, hg⟩

theorem fate_onOk {α σ : Type} {I : σ → Prop} {K : α → σ → Prop} {fate : Fate} {w w' : σ} {served : Except Err α × σ}
    {r : Except Err α} (h : fate.answer w served = some (r, w')) (hI : I w) (hI' : I served.2)
    (hK : OnOk K served.1 served.2) : I w' ∧ OnOk K r w' := by
  rcases Fate.answerWith_cases h with ⟨rfl, rfl⟩ | ⟨err, rfl, -, rfl | rfl⟩
  · exact ⟨hI', hK⟩
  · exact ⟨hI, onOk_error err⟩
  · exact ⟨hI', onOk_error err⟩

section change

variable {I : SpdkTarget → Prop} {w : SpdkTarget} {nqn host : Str} {hosts₀ : List Str}
  (hI : ∀ t : SpdkTarget, t.within nqn hosts₀ → I t)

include hI

theorem removeHosts_holds (hosts : List Str) (hw : w.within nqn hosts₀) (hw' : w.within nqn hosts) :
    (removeHosts nqn hosts).Holds server I (OnOk fun _ t => t.within nqn []) w := by
  induction hosts generalizing w with
  | nil => exact .ret (hI w hw) (onOk_ok hw')
  | cons host hosts ih =>
    refine .bind (.op (hI w hw) ?_)
    rintro interrupted t ⟨ch, ⟨⟩⟩
    refine ⟨hI w hw, ?_⟩
    split
    · exact .ret (hI w hw) (onOk_error _)
    refine .try (.op (hI w hw) ?_)
    rintro r t ⟨ch, h⟩
    obtain ⟨s, hs, hany, hsub⟩ := hw
    obtain ⟨s', hs', -, hsub'⟩ := hw'
    obtain rfl : s = s' := Option.some.inj (hs.symm.trans hs')
    have hedit : ∀ l : List Str, (∀ h ∈ s.hosts, h ≠ host → h ∈ l) →
        (w.edit nqn id (List.filter fun h => h ≠ host)).within nqn l := fun l hl =>
      within_edit hs hany fun h hh => hl h (List.mem_filter.1 hh).1 (of_decide_eq_true (List.mem_filter.1 hh).2)
    have hw0 := hedit hosts₀ fun h hh _ => hsub h hh
    have hw1 := hedit hosts fun h hh hne => (List.mem_cons.1 (hsub' h hh)).resolve_left hne
    refine fate_onOk h (hI w ⟨s, hs, hany, hsub⟩) ?_ ?_
    · split
      · exact hI _ hw0
      · exact hI w ⟨s, hs, hany, hsub⟩
    · split
      · exact onOk_ok (ih hw0 hw1)
      · exact onOk_error _

theorem authorizeHost_holds (hx : ∀ t : SpdkTarget, t.exactly nqn host → I t) (hw : w.within nqn []) :
    (authorizeHost nqn host).Holds server I (OnOk fun _ t => t.exactly nqn host) w := by
  obtain ⟨s, hs, hany, hsub⟩ := hw
  have hnil : s.hosts = [] := List.eq_nil_iff_forall_not_mem.2 fun h hh => List.not_mem_nil (hsub h hh)
  have hIw : I w := hI w ⟨s, hs, hany, fun h hh => nomatch hnil ▸ hh⟩
  unfold authorizeHost
  split
  · rename_i hne
    refine .try (.op hIw ?_)
    rintro r t ⟨ch, h⟩
    have hw' : (w.edit nqn id (· ++ [host])).exactly nqn host := by
      refine ⟨_, (get_edit ..).trans (congrArg _ hs), hany, ?_⟩
      simp [hnil, wantedHosts, hne]
    refine fate_onOk h hIw ?_ ?_
    · split
      · exact hIw
      · exact hx _ hw'
    · split
      · exact onOk_error _
      · exact onOk_ok (.ret (hx _ hw') (onOk_ok hw'))
  · rename_i hne
    exact .ret hIw (onOk_ok ⟨s, hs, hany, by simp [hnil, wantedHosts, Classical.not_not.1 hne]⟩)

omit hI in
theorem disableAnyHost_holds {current : Subsystem} (hI : ∀ t : SpdkTarget, t.within nqn current.hosts → I t) (hIw : I w)
    (hcur : w.get nqn = some current) :
    (disableAnyHost nqn current).Holds server I (OnOk fun _ t => t.within nqn current.hosts) w := by
  unfold disableAnyHost
  split
  · refine .try (.op hIw ?_)
    rintro r t ⟨ch, h⟩
    have hw : (w.edit nqn (fun _ => false) id).within nqn current.hosts := within_edit hcur rfl fun h hh => hh
    exact fate_onOk h hIw (hI _ hw) (onOk_ok (.ret (hI _ hw) (onOk_ok hw)))
  · rename_i hany
    exact .ret hIw (onOk_ok ⟨current, hcur, by simpa using hany, fun h hh => hh⟩)

end change

theorem exact_hosts {current : Subsystem} {host : Str} (h : exact current host = true) :
    current.allowAnyHost = false ∧ current.hosts = wantedHosts host := by
  simp only [exact, Bool.and_eq_true, Bool.not_eq_true'] at h
  refine ⟨h.1, ?_⟩
  have hhosts := h.2
  by_cases hh : host = []
  · simpa [wantedHosts, hh] using hhosts
  · simpa [wantedHosts, hh] using hhosts

/-- **SPDK**: nobody else gets in on the way, and the wanted host alone at the end. -/
theorem reconcileHostAccess_holds (nqn host : Str) (w : SpdkTarget) :
    (reconcileHostAccess nqn host).Holds server (w.noWider nqn host) (OnOk fun _ t => t.exactly nqn host) w := by
  have hIw : w.noWider nqn host w := .inl subset_rfl
  refine .bind (.op hIw ?_)
  rintro interrupted t ⟨ch, ⟨⟩⟩
  refine ⟨hIw, ?_⟩
  split
  · exact .ret hIw (onOk_error _)
  refine .try (.op hIw ?_)
  rintro r t ⟨ch, h⟩
  refine fate_onOk h hIw hIw (onOk_ok ?_)
  split
  · exact .ret hIw (onOk_error _)
  rename_i current hcur
  have hI : ∀ t : SpdkTarget, t.within nqn current.hosts → w.noWider nqn host t := by
    rintro t ⟨s, hs, hany, hsub⟩
    refine .inl ?_
    rintro x ⟨s', hs', hx⟩
    obtain rfl : s = s' := Option.some.inj (hs.symm.trans hs')
    rw [hany] at hx
    exact ⟨current, hcur, .inr (hsub x (hx.resolve_left nofun))⟩
  split
  · rename_i hexact
    obtain ⟨hany, hhosts⟩ := exact_hosts hexact
    exact .ret hIw (onOk_ok ⟨current, hcur, hany, hhosts⟩)
  · refine .try ((disableAnyHost_holds hI hIw hcur).mono ?_)
    rintro r t - hr a rfl
    refine .try ((removeHosts_holds hI current.hosts (hr a rfl) (hr a rfl)).mono ?_)
    rintro r u - hu a rfl
    exact authorizeHost_holds hI (fun t => .inr) (hu a rfl)

end SpdkTarget

/-! ### Both -/

/-- **A change of the hosts never widens access.**  Whatever fails and wherever the change stops, the hosts that get
in at that moment got in before, or are the wanted one alone; and where it succeeds, the wanted one alone is allowed
and, for the kernel target, the subsystem is linked. -/
theorem access_never_widens [StdLib] [StdLib.Lawful] (nqn host : Str) :
    (∀ (w w' : SpdkTarget) (p : Proc (Except Err Unit)),
      Reaches SpdkTarget.server (Spdk.reconcileHostAccess nqn host) w p w' →
      (w'.admits nqn ⊆ w.admits nqn ∨ w'.exactly nqn host) ∧ (p = .ret (.ok ()) → w'.exactly nqn host)) ∧
    (∀ (w w' : Nvmet.Target) (p : Proc (Except Err Unit)),
      Reaches Nvmet.server (Kernel.reconcileHostAccess nqn host) w p w' →
      (w'.admits nqn ⊆ w.admits nqn ∨ w'.exactly nqn host) ∧
        (p = .ret (.ok ()) → w'.exactly nqn host ∧ w'.linked nqn)) := by
  refine ⟨fun w w' p hrun => ?_, fun w w' p hrun => ?_⟩
  · have h := hrun.holds (SpdkTarget.reconcileHostAccess_holds nqn host w)
    refine ⟨h.inv, ?_⟩
    rintro rfl
    exact h.2 () rfl
  · have h := hrun.holds (Nvmet.reconcileHostAccess_holds nqn host w)
    refine ⟨h.inv, ?_⟩
    rintro rfl
    exact (h.2 () rfl).symm

section

attribute [local instance] asciiLib

/-- A target that everybody may use, and two hosts of which one is wanted. -/
def openSpdk : SpdkTarget := [{ nqn := "n", allowAnyHost := true, hosts := [str "a", str "b"] }]

def openNvmet : Nvmet.Target where
  subsystems := fun nqn => if nqn = str "n" then some { allowAny := true, hosts := [str "a", str "b"] } else none
  port := some {
    values := fun _ => "x"
    links := AList.singleton (str "n") (Kernel.subsystemPath "n") }

theorem access_never_widens_open :
    (Prog.exec SpdkTarget.answer (List.replicate 12 .calm) (Spdk.reconcileHostAccess "n" "b") openSpdk).2.exactly "n" "b" ∧
    (Prog.exec Nvmet.answer (List.replicate 12 .calm) (Kernel.reconcileHostAccess "n" "b") openNvmet).2.exactly "n" "b" := by
  refine ⟨((access_never_widens "n" "b").1 openSpdk _ _ (reaches_exec ..)).2 (eq_ret (by decide +kernel)), ?_⟩
  exact (((access_never_widens "n" "b").2 openNvmet _ _ (reaches_exec ..)).2 (eq_ret (by decide +kernel))).1

end

end Distort
