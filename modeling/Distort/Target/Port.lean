import Distort.Lib.Run
import Distort.Target.Nvmet

/-!
The port that all volumes of a node share, and what a change of its address does to their links.

`ensureKernelPort` takes every link away, writes the addresses and makes the links again.  The restoring loop is set
up only after the loop that removes, so a removal that fails leaves the links before it removed.

* `Without` — the links as before the call, without the named ones;
* `watch` — what is noted of a run: whether a removal failed once a link was taken away;
* `removeLinks_holds`, `restoreKernelPortLinks_holds` — the two loops;
* `ensureKernelPort_restores` — every link is back exactly if that did not happen;
* `link_lost` — a removal that fails.
-/

namespace Distort.Nvmet

open Go Lib Kube Agent Agent.Kernel Prog

/-! ### Single operations -/

/-- Making a link is not what fails. -/
def recreates : (c : Call) → c.Resp → Bool
  | .fs (.symlink _ _), .error err => err.isAlreadyExists
  | _, _ => true

/-- What is noted of a run: a removal has taken a link of the port away, and a removal has failed since (or failed
while it did). -/
structure Watch where
  taken : Bool := false
  stuck : Bool := false

/-- The link that the path names is gone. -/
def takes (path : Path) (w w' : Target) : Bool :=
  match Entry.of path with
  | .link name => (w.link name).isSome && (w'.link name).isNone
  | _ => false

def watch : (c : Call) → Target → c.Resp → Target → Watch → Watch
  | .fs (.remove path), w, r, w', n =>
    let taken := n.taken || takes path w w'
    { taken, stuck := n.stuck || taken && !Except.isOk r }
  | _, _, _, _, n => n

/-- The call removes something. -/
def removal : Call → Bool
  | .fs (.remove _) => true
  | _ => false

theorem watch_unmoved {n : Watch} (c : Call) (w : Target) (r : c.Resp) (w' : Target) (h : removal c = false) :
    watch c w r w' n = n := by
  unfold watch
  split
  · cases h
  · rfl

/-- The links as in `w₀`, without the named ones. -/
def Without (w₀ : Target) (names : List Str) (w : Target) : Prop :=
  ∀ name, w.link name = if name ∈ names then none else w₀.link name

theorem where_le (S : Server Call Call.Resp Target) (P : (c : Call) → c.Resp → Bool) : S.where P ≤ S :=
  fun _ _ _ _ h => h.1

theorem without_nil (w : Target) : Without w [] w := fun _ => rfl

/-- Every link of `w₀` is a link of `w`. -/
abbrev Kept (w₀ w : Target) : Prop := ∀ name target, w₀.link name = some target → w.link name = some target

theorem Without.kept_iff {w₀ w : Target} {names : List Str} (h : Without w₀ names w)
    (hnames : ∀ name ∈ names, (w₀.link name).isSome = true) : Kept w₀ w ↔ names = [] := by
  constructor
  · intro hkept
    refine List.eq_nil_iff_forall_not_mem.2 fun name hname => ?_
    obtain ⟨target, ht⟩ := Option.isSome_iff_exists.1 (hnames name hname)
    have hgone := hkept name target ht
    rw [h name, if_pos hname] at hgone
    cases hgone
  · rintro rfl name target ht
    rw [h name, if_neg List.not_mem_nil, ht]

theorem Without.remove {w₀ w : Target} {names : List Str} (h : Without w₀ names w) (entry : Str) :
    Without w₀ (names ++ [entry]) (act (.remove (linkPath entry)) w).2 := by
  intro other
  rw [act_remove_link, h other]
  by_cases ho : other = entry
  · simp [ho]
  · simp [ho]

theorem act_remove_linked {w : Target} {name : Str} {target : Path} (h : w.link name = some target) :
    (act (.remove (linkPath name)) w).1 = .ok () := by
  obtain ⟨p, hp, hl⟩ := Option.bind_eq_some_iff.1 h
  simp only [act, of_linkPath, remove, hp, onSome]
  rw [if_pos (AList.lookup_isSome.1 (by rw [hl]; rfl))]

variable (values : List (Str × Str))

variable {entries : List Str}

section port

variable {P : (c : Call) → c.Resp → Bool} {w₀ w : Target} {names : List Str}

theorem holds_fs_where {c : FsCall} {Q : c.Resp → Target → Prop}
    (hok : P (.fs c) (act c w).1 = true → Q (act c w).1 (act c w).2)
    (herr : ∀ err w', injected err = true → P (.fs c) (failed c err) = true → w' = w ∨ w' = (act c w).2 → Q (failed c err) w') :
    (Proc.fs c).Meets (server.where P) Q w := by
  refine Holds.op (I := fun _ => True) trivial ?_
  rintro r w' ⟨⟨ch, h⟩, hP⟩
  rcases fs_cases h with heq | ⟨err, hi, rfl, hw⟩
  · rw [heq] at hok
    exact ⟨trivial, hok hP⟩
  · exact ⟨trivial, herr err w' hi hP hw⟩

/-- The links that are read are those of the listed entries. -/
abbrev Read (w : Target) (entries : List Str) (links : List (Path × Path)) : Prop :=
  List.Forall₂ (fun entry link => link.1 = linkPath entry ∧ w.link entry = some link.2) entries links

theorem readLinks_holds {S : Server Call Call.Resp Target} (hS : S ≤ server) {I : Target → Prop} (hI : I w)
    (entries : List Str) :
    (readLinks entries).Holds S I (fun r t => t = w ∧ OnOk (fun links _ => Read w entries links) r t) w := by
  induction entries with
  | nil => exact .ret hI ⟨rfl, onOk_ok .nil⟩
  | cons entry entries ih =>
    refine .bind (holds_look hS hI rfl fun r hr => ?_)
    rcases r with err | target
    · exact .ret hI ⟨rfl, onOk_error _⟩
    rw [act_readlink] at hr
    obtain ⟨_, hl, rfl⟩ := answered hr rfl
    refine .bind (ih.mono ?_)
    rintro r t - ⟨rfl, hr⟩
    cases r with
    | error err => exact .ret hI ⟨rfl, onOk_error err⟩
    | ok links => exact .ret hI ⟨rfl, onOk_ok (.cons ⟨rfl, hl⟩ (hr links rfl))⟩

/-- The loop ends with all links taken away, or a removal fails.  Then all links are there exactly if none had been
taken away before, and this removal took none away either. -/
theorem removeLinks_holds {links : List (Path × Path)} {n : Watch} (hread : Read w₀ entries links)
    (hnd : entries.Nodup) (hfresh : ∀ entry ∈ entries, entry ∉ names) (hnames : ∀ name ∈ names, (w₀.link name).isSome = true)
    (hw : Without w₀ names w) (hn : n = ⟨names ≠ [], false⟩) : (removeLinks links).Meets ((server.where P).noted watch)
      (fun r x => r = .ok () ∧ Without w₀ (names ++ entries) x.1 ∧ x.2.stuck = false ∨
        (∃ err, r = .error err) ∧ (Kept w₀ x.1 ↔ x.2.stuck = false)) (w, n) := by
  induction hread generalizing names w n with
  | nil => exact .ret trivial (.inl ⟨rfl, by simpa using hw, by rw [hn]⟩)
  | @cons entry link entries links hlink _ ih =>
    obtain ⟨hentry, hnd⟩ := List.nodup_cons.1 hnd
    have hl : w.link entry = some link.2 := by rw [hw entry, if_neg (hfresh entry List.mem_cons_self), hlink.2]
    have hw' := hw.remove entry
    have htakes : takes (linkPath entry) w (act (.remove (linkPath entry)) w).2 = true := by
      simp [takes, hl, act_remove_link]
    have hnames' : ∀ name ∈ names ++ [entry], (w₀.link name).isSome = true := by
      intro name hname
      rcases List.mem_append.1 hname with h | h
      · exact hnames name h
      · rw [List.mem_singleton.1 h, hlink.2]
        rfl
    rw [removeLinks, hlink.1]
    refine .bind (Holds.op (I := fun _ => True) trivial ?_)
    rintro r ⟨w1, n1⟩ ⟨⟨⟨ch, h⟩, -⟩, hn1⟩
    replace h : fs ch.fate (.remove (linkPath entry)) w = some (r, w1) := h
    replace hn1 : n1 = watch (.fs (.remove (linkPath entry))) w r w1 n := hn1
    refine ⟨trivial, ?_⟩
    rcases fs_cases h with heq | ⟨err, -, rfl, hw1⟩
    · obtain rfl : r = .ok () := (congrArg Prod.fst heq).symm.trans (act_remove_linked hl)
      obtain rfl : w1 = (act (.remove (linkPath entry)) w).2 := (congrArg Prod.snd heq).symm
      have hnext := @ih _ (names ++ [entry]) n1 hnd (fun e he => ?_) hnames' hw' ?_
      · rwa [List.append_assoc] at hnext
      · rw [List.mem_append, List.mem_singleton, not_or]
        exact ⟨hfresh e (List.mem_cons_of_mem _ he), fun heq => hentry (heq ▸ he)⟩
      · simp [hn1, hn, watch, htakes, Except.isOk, Except.toBool]
    refine .ret trivial (.inr ⟨⟨_, rfl⟩, ?_⟩)
    rcases hw1 with rfl | rfl
    · rw [hw.kept_iff hnames]
      simp [hn1, hn, watch, takes, hl, failed, Except.isOk, Except.toBool]
    · rw [hw'.kept_iff hnames']
      simp [hn1, watch, htakes, failed, Except.isOk, Except.toBool]

theorem writePort_holds (hw : Without w₀ names w) :
    (writePort values).Meets (server.where P) (fun _ t => Without w₀ names t) w := by
  induction values generalizing w with
  | nil => exact .ret trivial hw
  | cons v values ih =>
    have hw' : Without w₀ names (act (.writeFile (portFile v.1) v.2) w).2 :=
      fun name => (act_write_link ..).trans (hw name)
    refine .bind (holds_fs_where (fun _ => ?_) ?_)
    · cases (act (.writeFile (portFile v.1) v.2) w).1 with
      | error err => exact .ret trivial hw'
      | ok _ => exact ih hw'
    · rintro err t - - (rfl | rfl)
      · exact .ret trivial hw
      · exact .ret trivial hw'

theorem restoreKernelPortLinks_holds
    (hP : ∀ target path r, P (.fs (.symlink target path)) r = true → ∀ err, r = .error err → err.isAlreadyExists = true)
    {links : List (Path × Path)} (hread : Read w₀ entries links) (hnd : entries.Nodup) (hw : Without w₀ entries w) :
    (restoreKernelPortLinks links).Meets (server.where P) (fun _ t => ∀ name, t.link name = w₀.link name) w := by
  induction hread generalizing w with
  | nil => exact .ret trivial fun name => by simpa using hw name
  | @cons entry link entries links hlink _ ih =>
    have hnone : w.link entry = none := by rw [hw entry, if_pos List.mem_cons_self]
    obtain ⟨hfresh, hnd⟩ := List.nodup_cons.1 hnd
    refine .bind (.bind (holds_fs_where (fun hr => ?_) fun err w' hi hr => ?_))
    · rw [hlink.1] at hr ⊢
      rcases act_link link.2 hnone with ⟨w', heq, hl, -⟩ | ⟨err, heq, hne⟩
      · rw [heq]
        refine .ret trivial (ih hnd fun name => ?_)
        rw [hl name, hw name]
        by_cases hname : name = entry
        · simp [hname, hfresh, hlink.2]
        · simp [hname]
      · rw [heq] at hr
        have := hP _ _ _ hr err rfl
        rw [hne] at this
        cases this
    · have := hP _ _ _ hr err rfl
      rw [(not_tolerated hi).2] at this
      cases this

end port

/-! ### The whole repair -/

section repair

variable [StdLib]

section

omit [StdLib]

theorem recreates_ok (target path : Path) (r : Except Err Unit) (h : recreates (.fs (.symlink target path)) r = true)
    (err : Err) (hr : r = .error err) : err.isAlreadyExists = true := by
  subst hr
  exact h

theorem readLinks_only (entries : List Str) : (readLinks entries).Only (removal · = false) := by
  induction entries with
  | nil => exact Proc.only_done _
  | cons entry entries ih =>
    exact .check (Proc.only_op rfl) (fun _ => Proc.only_fail _) fun _ => ih.check Proc.only_fail fun _ => Proc.only_done _

theorem writePort_only : (writePort values).Only (removal · = false) := by
  induction values with
  | nil => exact Proc.only_done _
  | cons v values ih => exact .check (Proc.only_op rfl) (fun _ => Proc.only_fail _) fun _ => ih

theorem restoreKernelPortLinks_only (links : List (Path × Path)) :
    (restoreKernelPortLinks links).Only (removal · = false) := by
  induction links with
  | nil => exact Proc.only_done _
  | cons link links ih =>
    refine .check (.check (Proc.only_op rfl) (fun err => ?_) Proc.only_done) Proc.only_fail fun _ => ih
    split
    · exact Proc.only_done _
    · exact Proc.only_fail _

theorem listLinks_nodup {w : Target} (h : (act (.readDir linksPath) w).1 = .ok entries) : entries.Nodup := by
  simp only [act, of_linksPath, readDir] at h
  cases hp : w.port with
  | none =>
    rw [hp] at h
    cases h
  | some p =>
    rw [hp] at h
    cases h
    exact p.links.keys_nodup

end

theorem allMatch_holds {P : (c : Call) → c.Resp → Bool} {w : Target} :
    (allMatch values).Meets (server.where P) (fun _ t => t = w) w := by
  induction values with
  | nil => exact .ret trivial rfl
  | cons v values ih =>
    refine .bind (.bind (.bind (holds_look (I := fun _ => True) (where_le server P) trivial rfl fun r _ => ?_)))
    have hvalue : ∀ actual : Except Err Str, (if decide (actual.toOption = some v.2) = true then allMatch values
        else .ret false).Meets (server.where P) (fun _ t => t = w) w := by
      intro actual
      split
      · exact ih
      · exact .ret trivial rfl
    cases r with
    | error err => exact .ret trivial (.ret trivial (hvalue (.error err)))
    | ok value => exact .ret trivial (.ret trivial (hvalue (.ok (trimSpace value))))

theorem allMatch_only : (allMatch values).Only (removal · = false) := by
  induction values with
  | nil => trivial
  | cons v values ih =>
    refine .bind (.bind (.check (Proc.only_op rfl) Proc.only_fail fun _ => Proc.only_done _) fun _ => trivial) fun same => ?_
    split
    · exact ih
    · trivial

theorem ensureKernelPort_holds (portalIP : Str) (portalPort : ℤ) (w : Target) :
    (ensureKernelPort portalIP portalPort).Meets ((server.where recreates).noted watch)
      (fun _ x => Kept w x.1 ↔ x.2.stuck = false) (w, {}) := by
  have hsame : ∀ {t : Target} {n : Watch}, (∀ name, t.link name = w.link name) → n.stuck = false →
      (Kept w t ↔ n.stuck = false) :=
    fun ht hn => iff_of_true (fun name target hl => (ht name).trans hl) hn
  unfold ensureKernelPort
  split
  · exact .ret trivial (hsame (fun _ => rfl) rfl)
  have hmk := (act_mkLinks w).1
  refine .bind ((Holds.noted (P := (removal · = false)) (Q := fun _ t => ∀ name, t.link name = w.link name)
    (holds_fs_where (fun _ => hmk) ?_) (Proc.only_op rfl) watch_unmoved).mono ?_)
  · rintro err t - - (rfl | rfl)
    · exact fun _ => rfl
    · exact hmk
  rintro r ⟨w1, n⟩ - ⟨hw1, rfl⟩
  cases r with
  | error err => exact .ret trivial (hsame hw1 rfl)
  | ok _ =>
    refine .bind (((allMatch_holds _).noted (allMatch_only _) watch_unmoved).mono ?_)
    rintro configured ⟨t, n⟩ - ⟨rfl, rfl⟩
    split
    · exact .ret trivial (hsame hw1 rfl)
    refine .bind ((Holds.noted (P := (removal · = false)) (Q := fun r u => u = t ∧ OnOk (fun entries _ => entries.Nodup) r u)
      (holds_look (c := .readDir linksPath) (I := fun _ => True) (where_le server recreates) trivial rfl ?_)
      (Proc.only_op rfl) watch_unmoved).mono ?_)
    · intro r hr
      refine ⟨rfl, ?_⟩
      rintro entries rfl
      rcases hr with hlist | ⟨err, -, hlist⟩
      · exact listLinks_nodup hlist.symm
      · cases hlist
    rintro r ⟨u, n⟩ - ⟨⟨rfl, hnd⟩, rfl⟩
    rcases r with err | entries
    · exact .ret trivial (hsame hw1 rfl)
    replace hnd := hnd entries rfl
    refine .bind (((readLinks_holds (I := fun _ => True) (where_le server recreates) trivial entries).noted
      (readLinks_only _) watch_unmoved).mono ?_)
    rintro r ⟨v, n⟩ - ⟨⟨rfl, hr⟩, rfl⟩
    rcases r with err | links
    · exact .ret trivial (hsame hw1 rfl)
    have hread := hr links rfl
    have hkept : ∀ x : Target, Kept w x ↔ Kept v x := fun x => by simp only [Kept, hw1]
    refine .bind ((removeLinks_holds hread hnd (fun _ _ => List.not_mem_nil) (fun _ h => nomatch h) (without_nil v)
      (by simp)).mono ?_)
    rintro r ⟨w2, n⟩ - (⟨rfl, hw2, hn⟩ | ⟨⟨err, rfl⟩, hiff⟩)
    swap
    · exact .ret trivial ((hkept w2).trans hiff)
    -- whether the files are written or not, the links come back
    refine .bind (((writePort_holds _ hw2).noted (writePort_only _) watch_unmoved).mono ?_)
    rintro written ⟨w3, n⟩ - ⟨hw3, rfl⟩
    refine .bind (((restoreKernelPortLinks_holds recreates_ok hread hnd hw3).noted (restoreKernelPortLinks_only _)
      watch_unmoved).mono ?_)
    rintro restored ⟨w4, n⟩ - ⟨hw4, rfl⟩
    exact .ret trivial (hsame (fun name => (hw4 name).trans (hw1 name)) hn)

/-- **When the links are back.**  Let making a link again be possible, and let every other operation fail or not, before
or after its effect.  When `ensureKernelPort` returns, with or without an error, every link of the port is as before
the call if and only if no removal of this call has failed after one of them had taken a link away (or while taking it
away). -/
theorem ensureKernelPort_restores (portalIP : Str) (portalPort : ℤ) (w w' : Target) (n : Watch) (r : Except Err Unit)
    (h : Reaches ((server.where recreates).noted watch) (ensureKernelPort portalIP portalPort) (w, {}) (.ret r) (w', n)) :
    (∀ name target, w.link name = some target → w'.link name = some target) ↔ n.stuck = false :=
  (h.holds (ensureKernelPort_holds portalIP portalPort w)).2

end repair

section

attribute [local instance] asciiLib

/-- A port with an old address and the links of two volumes. -/
def shared : Target where
  subsystems := fun nqn => if nqn = str "x" ∨ nqn = str "y" then some {} else none
  port := some {
    values := fun _ => "old"
    links := (AList.singleton (str "y") (subsystemPath "y")).insert (str "x") (subsystemPath "x") }

/-- The choices of a run in which the removal of the second link fails. -/
def failing : List Choice := List.replicate 6 .calm ++ [{ fate := .fail busy }]

/-- The run. -/
def stopped : Proc (Except Err Unit) × Target :=
  Prog.exec (fun ch c s => (answer ch c s).filter fun a => recreates c a.1) failing (ensureKernelPort "10.0.0.2" 4420) shared

/-- The repair returns an error, the link of the first volume is gone, and nothing would keep it from being made again. -/
theorem link_lost : Reaches (server.where recreates) (ensureKernelPort "10.0.0.2" 4420) shared stopped.1 stopped.2 ∧
    stopped.1 = .ret (.error (.wrapf "disconnect kernel target port link %s: %w" [text (linkPath "y")] busy)) ∧
    shared.link "x" = some (subsystemPath "x") ∧ stopped.2.link "x" = none ∧
    (act (.symlink (subsystemPath "x") (linkPath "x")) stopped.2).1 = .ok () := by
  exact ⟨reaches_exec_where answer recreates failing _ shared, eq_ret (by decide +kernel), by decide +kernel,
    by decide +kernel, by decide +kernel⟩

/-- The choices of a run in which the first removal fails without an effect. -/
def unremovable : List Choice := List.replicate 5 .calm ++ [{ fate := .fail busy }]

/-- The choices of a run in which the first address cannot be written. -/
def unwritable : List Choice := List.replicate 7 .calm ++ ({ fate := .fail busy } :: List.replicate 2 .calm)

def repaired (choices : List Choice) : Proc (Except Err Unit) × Target × Watch :=
  Prog.exec (fun ch c s => ((answer ch c s.1).filter fun a => recreates c a.1).map fun a =>
    (a.1, a.2, watch c s.1 a.1 a.2 s.2)) choices (ensureKernelPort "10.0.0.2" 4420) (shared, {})

/-- With the second removal failing a link is lost; with the first one failing, or with an address that cannot be
written, none is. -/
theorem ensureKernelPort_restores_shared :
    (∃ name target, shared.link name = some target ∧ (repaired failing).2.1.link name ≠ some target) ∧
    (∀ choices ∈ [unremovable, unwritable], ∀ name target, shared.link name = some target →
      (repaired choices).2.1.link name = some target) := by
  have hiff : ∀ choices, (repaired choices).1.result.isSome = true →
      (Kept shared (repaired choices).2.1 ↔ (repaired choices).2.2.stuck = false) := by
    intro choices hret
    obtain ⟨r, hr⟩ := Option.isSome_iff_exists.1 hret
    have hrun := reaches_exec_noted answer recreates watch choices (ensureKernelPort "10.0.0.2" 4420) (shared, {})
    exact ensureKernelPort_restores "10.0.0.2" 4420 shared _ _ r (eq_ret hr ▸ hrun)
  constructor
  · by_contra hall
    push Not at hall
    have hstuck := (hiff failing (by decide +kernel)).1 hall
    exact absurd hstuck (by decide +kernel)
  · intro choices hmem
    rcases List.mem_pair.1 hmem with rfl | rfl
    · exact (hiff _ (by decide +kernel)).2 (by decide +kernel)
    · exact (hiff _ (by decide +kernel)).2 (by decide +kernel)

end

end Distort.Nvmet
