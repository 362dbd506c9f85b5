import Distort.Csi.Node
import Distort.Lib.Kube
import Distort.Lib.Run
import Distort.Lib.Server

/-!
Staging as a transaction: what `NodeStageVolume` leaves on the node when it fails.

A rollback undoes what the call reports to have made.  A command that has taken effect although it is reported to have
failed, or a connection that was there but was not seen, escapes that.

* `answer` — the node: the staging directory, the connection and the mounts at the staging path; any call may fail, with
  or without its effect, and the context may be done at any moment;
* `Orderly` — the steps that the code accounts for, with a cleanup that succeeds;
* `nodeStage_all_or_nothing` — a failed call leaves the node as it was, in every run of such steps;
* `not_rolled_back` — runs with other steps.
-/

namespace Distort.Staging

open Go Lib Lib.Kube Prog Csi HostProc

/-! ### The node -/

/-- What belongs to the volume on the node, and the context of the request. -/
structure Node where
  directory : Bool
  connected : Bool
  /-- The sources of the mounts at the staging path, the last one first. -/
  mounts : List Str
  done : Option Err := none
  deriving DecidableEq

/-- What becomes of a call; what is read, where the state does not say. -/
structure Choice where
  /-- The context is done from now on. -/
  cancel : Option Err := none
  fate : Fate := .ok
  output : Str := []
  exitCode : Option ℤ := none
  hosts : Except Err (List NVMEHost) := .ok []
  table : Except Err Str := .ok []
  text : Except Err Str := .ok []
  seen : Except Err Unit := .ok ()
  tick : Tick := .ticker
  expired : Option Err := none

section answer

variable [StdLib] (path nqn : Str)

/-- A command with an effect. -/
def command (ch : Choice) (w w' : Node) : Except Failure Unit × Node :=
  match ch.fate with
  | .ok => (.ok (), w')
  | .fail err => (.error ⟨ch.output, ch.exitCode, err⟩, w)
  | .lost err => (.error ⟨ch.output, ch.exitCode, err⟩, w')

/-- A call on a node whose context is as it will be after the call. -/
def serve (ch : Choice) : (c : HostCall) → Node → Option (c.Resp × Node)
  | .ctxErr .request, w => some (w.done, w)
  | .ctxErr .cleanup, w => some (ch.expired, w)
  | .select, w => some (ch.tick, w)
  | .stat p, w =>
    if p = path then ch.fate.answer w (if w.directory then .ok () else .error ⟨.notFound, "no such file or directory"⟩, w)
    else some (ch.seen, w)
  | .mkdirAll p, w => if p = path then ch.fate.answer w (.ok (), { w with directory := true }) else none
  | .remove p, w =>
    if p = path then
      ch.fate.answer w (if w.directory && w.mounts = [] then (.ok (), { w with directory := false })
        else (.error ⟨.other, "device or resource busy"⟩, w))
    else none
  | .readMountInfo, w =>
    match mountAt ch.table path with
    | .error _ => some (ch.table, w)
    | .ok record => if record.isSome = !w.mounts.isEmpty then some (ch.table, w) else none
  | .deviceNumber _, w => some (ch.text, w)
  | .nvmeListSubsys _, w =>
    match ch.fate with
    | .ok => if (deviceByNQN ch.hosts nqn).isOk && !w.connected then none else some (.ok ch.hosts, w)
    | .fail err | .lost err => some (.error ⟨ch.output, ch.exitCode, err⟩, w)
  | .nvmeConnect _ _ _ n _, w => if n = nqn then some (command ch w { w with connected := true }) else none
  | .nvmeDisconnect _ n, w => if n = nqn then some (command ch w { w with connected := false }) else none
  | .blkid _ _, w => some (ch.text.mapError fun err => ⟨ch.output, ch.exitCode, err⟩, w)
  | .mkfs _ _ _, w => some (command ch w w)
  | .mount _ _ source t, w => if t = path then some (command ch w { w with mounts := source :: w.mounts }) else none
  | .umount _ t, w => if t = path then some (command ch w { w with mounts := w.mounts.tail }) else none
  | .forever, _ => none

def answer (ch : Choice) (c : HostCall) (w : Node) : Option (c.Resp × Node) :=
  serve path nqn ch c { w with done := w.done.or ch.cancel }

/-- The steps that the code accounts for, in a call that started with `w₀`: a failed `mkdir` makes nothing; `nvme connect`
runs only while there is no connection, and takes effect in spite of an error only if the context is done; a failed
`mount` mounts nothing; the mount table can be read, and the context is not done, while something is mounted that was
not before; and the cleanup succeeds. -/
def Orderly (w₀ : Node) : (c : HostCall) → Node → c.Resp → Node → Prop
  | .mkdirAll _, w, r, w' => ∀ err, r = .error err → w'.directory = w.directory
  | .nvmeConnect _ _ _ _ _, w, r, w' => w.connected = false ∧ ∀ f, r = .error f → w'.connected = true → w'.done ≠ none
  | .mount _ _ _ _, w, r, w' => ∀ f, r = .error f → w'.mounts = w.mounts
  | .readMountInfo, w, r, _ => w.mounts ≠ w₀.mounts → ∃ record, mountAt r path = .ok record
  | .remove _, _, r, _ => r = .ok ()
  | .nvmeDisconnect _ _, _, r, _ => r = .ok ()
  | .umount _ _, _, r, _ => r = .ok ()
  | _, _, _, _ => True

instance (w₀ : Node) : (c : HostCall) → (w : Node) → (r : c.Resp) → (w' : Node) → Decidable (Orderly path w₀ c w r w')
  | .mkdirAll _, w, r, w' => match r with
    | .ok _ => isTrue (by simp [Orderly])
    | .error _ => decidable_of_iff (w'.directory = w.directory) (by simp [Orderly])
  | .nvmeConnect _ _ _ _ _, w, r, w' => match r with
    | .ok _ => decidable_of_iff (w.connected = false) (by simp [Orderly])
    | .error _ => decidable_of_iff (w.connected = false ∧ (w'.connected = true → w'.done ≠ none)) (by simp [Orderly])
  | .mount _ _ _ _, w, r, w' => match r with
    | .ok _ => isTrue (by simp [Orderly])
    | .error _ => decidable_of_iff (w'.mounts = w.mounts) (by simp [Orderly])
  | .readMountInfo, w, r, _ => match hr : mountAt r path with
    | .ok record => isTrue fun _ => ⟨record, hr⟩
    | .error _ => decidable_of_iff (w.mounts = w₀.mounts) (by simp [Orderly, hr])
  | .remove _, _, r, _ | .nvmeDisconnect _ _, _, r, _ | .umount _ _, _, r, _ => match r with
    | .ok _ => isTrue rfl
    | .error _ => isFalse (by simp [Orderly])
  | .ctxErr _, _, _, _ | .select, _, _, _ | .stat _, _, _, _ | .deviceNumber _, _, _, _ | .nvmeListSubsys _, _, _, _
  | .blkid _ _, _, _, _ | .mkfs _ _ _, _, _, _ | .forever, _, _, _ => isTrue trivial

/-- The node in such a run. -/
def orderly (w₀ : Node) : Server HostCall HostCall.Resp Node := fun c w r w' =>
  Server.of (answer path nqn) c w r w' ∧ Orderly path w₀ c w r w' ∧ (w'.mounts ≠ w₀.mounts → w'.done = none)

end answer

/-! ### Single calls -/

/-- The state of what belongs to the volume. -/
structure Node.At (directory connected : Bool) (mounts : List Str) (w : Node) : Prop where
  directory : w.directory = directory
  connected : w.connected = connected
  mounts : w.mounts = mounts

/-- A call that changes nothing on the node. -/
def looks : HostCall → Bool
  | .ctxErr _ | .select | .stat _ | .readMountInfo | .deviceNumber _ | .nvmeListSubsys _ | .blkid _ _ | .mkfs _ _ _ => true
  | _ => false

section calls

variable [StdLib] {path nqn : Str} {w₀ w w' : Node} {d c : Bool} {m : List Str}

/-- A failure leaves the node like this. -/
def Undone {ε α : Type} (d c : Bool) (m : List Str) (r : Except ε α) (w : Node) : Prop := ∀ err, r = .error err → w.At d c m

omit [StdLib] in
theorem command_same {ch : Choice} {w : Node} : (command ch w w).2 = w := by
  unfold command
  split <;> rfl

variable {q : HostCall}

theorem serve_look {ch : Choice} {r : q.Resp} (hq : looks q = true)
    (h : serve path nqn ch q w = some (r, w')) : w' = w := by
  cases q with
  | ctxErr ctx => cases ctx <;> cases h <;> rfl
  | select =>
    cases h
    rfl
  | stat p =>
    simp only [serve] at h
    split at h
    · exact (Fate.answer_state h).elim id id
    · cases h
      rfl
  | readMountInfo =>
    simp only [serve] at h
    split at h
    · cases h
      rfl
    split at h
    · cases h
      rfl
    · cases h
  | deviceNumber p =>
    cases h
    rfl
  | nvmeListSubsys ctx =>
    simp only [serve] at h
    split at h
    · split at h
      · cases h
      · cases h
        rfl
    · cases h
      rfl
    · cases h
      rfl
  | blkid ctx source =>
    cases h
    rfl
  | mkfs ctx command args =>
    have h' := congrArg Prod.snd (Option.some.inj h)
    exact h'.symm.trans command_same
  | _ => cases hq

theorem orderly_look {r : q.Resp} (hq : looks q = true) (h : orderly path nqn w₀ q w r w')
    (hw : w.At d c m) : w'.At d c m ∧ (w.done ≠ none → w'.done = w.done) := by
  obtain ⟨⟨ch, hs⟩, -⟩ := h
  rw [serve_look hq hs]
  refine ⟨⟨hw.directory, hw.connected, hw.mounts⟩, fun hdone => ?_⟩
  obtain ⟨err, herr⟩ := Option.ne_none_iff_exists'.1 hdone
  simp [herr]

theorem holds_call {Q : q.Resp → Node → Prop} (h : ∀ r w', orderly path nqn w₀ q w r w' → Q r w') :
    (HostProc.op q).Meets (orderly path nqn w₀) Q w :=
  Holds.op (I := fun _ => True) trivial fun r w' hr => ⟨trivial, h r w' hr⟩

theorem holds_look {Q : q.Resp → Node → Prop} (hq : looks q = true) (hw : w.At d c m)
    (h : ∀ r w', w'.At d c m → orderly path nqn w₀ q w r w' → Q r w') :
    (HostProc.op q).Meets (orderly path nqn w₀) Q w :=
  holds_call fun r w' hr => h r w' (orderly_look hq hr hw).1 hr

/-! ### The connection -/

theorem interruptedOr_holds {ε α : Type} {ctx : Ctx} {g : Err → ε} {k : HostProc (Except ε α)}
    {Q : Except ε α → Node → Prop} (hw : w.At d c m) (hg : ∀ err w', w'.At d c m → Q (.error (g err)) w')
    (hk : ∀ w', w'.At d c m → (ctx = .request → w.done = none) → k.Meets (orderly path nqn w₀) Q w') :
    (interruptedOr ctx g k).Meets (orderly path nqn w₀) Q w := by
  refine .bind (holds_look rfl hw fun r w' hw' hr => ?_)
  cases r with
  | some err => exact .ret trivial (hg err w' hw')
  | none =>
    refine hk w' hw' ?_
    rintro rfl
    obtain ⟨⟨ch, hs⟩, -⟩ := hr
    obtain ⟨hnone, -⟩ := Prod.mk.inj (Option.some.inj hs)
    exact (Option.or_eq_none_iff.1 hnone).1

theorem getDeviceByNQN_holds (ctx : Ctx) (hw : w.At d c m) : (getDeviceByNQN ctx nqn).Meets (orderly path nqn w₀)
      (fun r w' => w'.At d c m ∧ (∀ device, r = .ok device → c = true)) w := by
  refine .bind (holds_look rfl hw fun r w' hw' hr => ?_)
  rcases r with f | hosts
  · refine interruptedOr_holds hw' (fun err t ht => ⟨ht, nofun⟩) fun t ht _ => .ret trivial ⟨ht, nofun⟩
  refine .ret trivial ⟨hw', fun device hdevice => ?_⟩
  obtain ⟨⟨ch, hs⟩, -⟩ := hr
  simp only [answer, serve] at hs
  split at hs
  · split at hs
    · cases hs
    rename_i hlive
    cases hs
    rw [hdevice] at hlive
    simpa [Except.isOk, Except.toBool, hw.connected] using hlive
  · cases hs
  · cases hs

omit [StdLib] in
theorem command_cases {ch : Choice} {w w' t : Node} {r : Except Failure Unit} (h : command ch w w' = (r, t)) :
    r = .ok () ∧ t = w' ∨ (∃ f, r = .error f) ∧ (t = w ∨ t = w') := by
  unfold command at h
  split at h
  · cases h
    exact .inl ⟨rfl, rfl⟩
  · cases h
    exact .inr ⟨⟨_, rfl⟩, .inl rfl⟩
  · cases h
    exact .inr ⟨⟨_, rfl⟩, .inr rfl⟩

/-- What a connection attempt leaves, by what it reports. -/
def Connected (d c₀ : Bool) (m : List Str) : Except (Bool × Err) Bool → Node → Prop
  | .ok false, w | .error (false, _), w => w.At d c₀ m
  | .ok true, w => c₀ = false ∧ w.At d true m
  | .error (true, _), w => c₀ = false ∧ ∃ c, w.At d c m

/-- **The report is right**: what is to be taken back was not there before, and what is not to be taken back is as
before. -/
theorem connectRDMA_holds (portalIP portalPort hostNQN : Str) (hw : w.At d c m) :
    (connectRDMA .request nqn portalIP portalPort hostNQN).Meets (orderly path nqn w₀) (Connected d c m) w := by
  refine .bind ((getDeviceByNQN_holds .request hw).mono fun r w1 _ hr => ?_)
  cases r with
  | ok device => exact .ret trivial hr.1
  | error err =>
    refine interruptedOr_holds hr.1 (fun _ _ ht => ht) fun w2 hw2 _ => .bind (holds_call fun r w3 hconnect => ?_)
    obtain ⟨⟨ch, hs⟩, ⟨hnone, hlost⟩, -⟩ := hconnect
    have hc : c = false := hw2.connected.symm.trans hnone
    subst hc
    simp only [answer, serve, if_true, Option.some.injEq] at hs
    rcases command_cases hs with ⟨rfl, rfl⟩ | ⟨⟨f, rfl⟩, hstate⟩
    · exact .ret trivial ⟨rfl, ⟨hw2.directory, rfl, hw2.mounts⟩⟩
    -- with its effect the context is done, and without it nothing has changed
    have hcases : w3.At d false m ∨ w3.At d true m ∧ w3.done ≠ none := by
      rcases hstate with rfl | rfl
      · exact .inl ⟨hw2.directory, hw2.connected, hw2.mounts⟩
      · exact .inr ⟨⟨hw2.directory, rfl, hw2.mounts⟩, hlost f rfl rfl⟩
    rcases hcases with hw3 | ⟨hw3, hdone⟩
    · refine interruptedOr_holds hw3 (fun _ t ht => ⟨rfl, false, ht⟩) fun t ht _ => ?_
      split
      · exact .ret trivial ht
      refine .bind ((getDeviceByNQN_holds .request ht).mono fun r u _ hu => ?_)
      cases r with
      | ok device => exact .ret trivial hu.1
      | error err => exact .ret trivial ⟨rfl, false, hu.1⟩
    · refine interruptedOr_holds hw3 (fun _ t ht => ⟨rfl, true, ht⟩) fun t ht hctx' => ?_
      exact absurd (hctx' rfl) hdone

/-! ### Taking back -/

variable {stage : ValidatedNodeStageRequest}

theorem takeBack_holds (hpath : stage.stagingTargetPath = path) (hnqn : stage.nqn = nqn)
    (createdConnection createdDirectory : Bool) (hw : w.At d c m) :
    (takeBack stage createdConnection createdDirectory).Meets (orderly path nqn w₀)
      (fun _ w' => w'.At (d && !createdDirectory) (c && !createdConnection) m) w := by
  subst hpath hnqn
  have hconnection : (if createdConnection then disconnectRDMA .cleanup stage.nqn >>= fun _ => .ret () else .ret () :
      HostProc Unit).Meets (orderly stage.stagingTargetPath stage.nqn w₀)
      (fun _ w' => w'.At d (c && !createdConnection) m) w := by
    cases createdConnection with
    | false => exact .ret trivial (by simpa using hw)
    | true =>
      refine .bind (.bind (holds_call fun r w' hr => ?_))
      obtain ⟨⟨ch, hs⟩, hok, -⟩ := hr
      cases hok
      simp only [answer, serve, if_true, Option.some.injEq] at hs
      obtain ⟨-, rfl⟩ := (command_cases hs).resolve_right fun h => nomatch h.1
      exact .ret trivial (.ret trivial ⟨hw.directory, by simp, hw.mounts⟩)
  refine .bind (hconnection.mono fun _ w1 _ hw1 => ?_)
  cases createdDirectory with
  | false => exact .ret trivial (by simpa using hw1)
  | true =>
    refine .bind (holds_call fun r w' hr => .ret trivial ?_)
    obtain ⟨⟨ch, hs⟩, hok, -⟩ := hr
    cases hok
    simp only [answer, serve, if_true] at hs
    have hserved := Fate.answer_ok hs
    split at hserved
    · cases hserved
      exact ⟨by simp, hw1.connected, hw1.mounts⟩
    · cases hserved

/-! ### Looking -/

/-- A program that only looks. -/
abbrev Looks {α : Type} (p : HostProc α) : Prop := p.Only fun q => looks q = true

theorem looks_holds {α : Type} {p : HostProc α} (hp : Looks p) (hw : w.At d c m) :
    p.Meets (orderly path nqn w₀) (fun _ w' => w'.At d c m) w :=
  (Holds.of_only hp hw fun _ _ _ _ hq hs hr => (orderly_look hq hr hs).1).weaken fun _ _ => trivial

section

omit [StdLib]

theorem looks_op (h : looks q = true) : Looks (HostProc.op q) := ⟨h, fun _ => trivial⟩

theorem interruptedOr_looks {ε α : Type} (ctx : Ctx) (g : Err → ε) {k : HostProc (Except ε α)} (hk : Looks k) :
    Looks (interruptedOr ctx g k) := by
  refine (looks_op rfl).bind fun err => ?_
  cases err with
  | some err => trivial
  | none => exact hk

theorem nodeOperationError_looks (message err : Str) : Looks (nodeOperationError message err) :=
  (looks_op rfl).bind fun _ => trivial

theorem waitForDevice_looks (device : Str) (polls : ℕ) : Looks (waitForDevice device polls) := by
  have honce {again : HostProc (Except Err Unit)} (h : Looks again) : Looks (waitForDeviceOnce device again) := by
    refine (looks_op rfl).bind fun info => ?_
    cases info with
    | ok _ => trivial
    | error err =>
      dsimp only
      split
      · trivial
      refine (looks_op rfl).bind fun tick => ?_
      cases tick with
      | done err => trivial
      | timer => trivial
      | ticker => exact h
  induction polls with
  | zero => exact honce trivial
  | succ polls ih => exact honce ih

end

theorem ensureFilesystemContext_looks (ctx : Ctx) (source requested : Str) :
    Looks (ensureFilesystemContext ctx source requested) := by
  have hprobe : Looks (probeFilesystem ctx source) := by
    refine (looks_op rfl).check (fun f => interruptedOr_looks _ _ ?_) fun _ => trivial
    split <;> trivial
  have hformat : Looks (formatFilesystem ctx source requested) := by
    unfold formatFilesystem
    split
    · trivial
    · exact (looks_op rfl).check (fun f => interruptedOr_looks _ _ trivial) fun _ => trivial
  refine hprobe.next fun detected => ?_
  split
  · exact hformat.next fun _ => trivial
  · split <;> trivial

/-! ### The mount -/

theorem readMountInfo_agrees {r : Except Err Str} {record : Option MountRecord}
    (h : orderly path nqn w₀ .readMountInfo w r w') (hr : mountAt r path = .ok record) :
    record.isSome = !w.mounts.isEmpty := by
  obtain ⟨⟨ch, hs⟩, -⟩ := h
  simp only [answer, serve] at hs
  split at hs
  · rename_i herr
    cases hs
    rw [herr] at hr
    cases hr
  · rename_i hok
    split at hs
    · rename_i hsame
      cases hs
      rw [hok] at hr
      cases hr
      exact hsame
    · cases hs

theorem verifyStagingMount_holds (source filesystem : Str) (hw : w.At d c m) :
    (verifyStagingMount source path filesystem).Meets (orderly path nqn w₀)
      (fun r w' => w'.At d c m ∧ (r = .ok false → m = [])) w := by
  refine .bind (holds_look rfl hw fun r w1 hw1 hr => ?_)
  rcases hat : mountAt r path with err | record
  · exact .ret trivial ⟨hw1, nofun⟩
  cases record with
  | none =>
    have hnone := readMountInfo_agrees hr hat
    rw [hw.mounts] at hnone
    exact .ret trivial ⟨hw1, fun _ => by simpa using hnone⟩
  | some record =>
    refine .bind (holds_look rfl hw1 fun r w2 hw2 _ => ?_)
    rcases r with err | expectedDevice
    · exact .ret trivial ⟨hw2, nofun⟩
    dsimp only
    split
    · exact .ret trivial ⟨hw2, nofun⟩
    split
    · exact .ret trivial ⟨hw2, nofun⟩
    split
    · exact .ret trivial ⟨hw2, nofun⟩
    · exact .ret trivial ⟨hw2, nofun⟩

/-- **Everything that is mounted goes**, where nothing was mounted before the call. -/
theorem unmount_holds (h0 : w₀.mounts = []) (rounds : ℕ) (hw : w.At d c m) :
    (unmount .request path rounds).Meets (orderly path nqn w₀) (fun _ w' => w'.At d c []) w := by
  induction rounds generalizing w m with
  | zero => exact ⟨trivial, nofun⟩
  | succ rounds ih =>
    refine .bind (holds_look rfl hw fun r w1 hw1 hctx => ?_)
    have hdone : m ≠ [] → r = none := by
      intro hm
      obtain ⟨⟨ch, hs⟩, -, hnone⟩ := hctx
      obtain ⟨rfl, rfl⟩ := Prod.mk.inj (Option.some.inj hs)
      exact hnone (by rw [hw1.mounts, h0]; exact hm)
    cases r with
    | some err =>
      have hm : m = [] := by
        by_contra hm
        exact nomatch hdone hm
      exact .ret trivial (hm ▸ hw1)
    | none =>
      refine .bind (holds_look rfl hw1 fun r w2 hw2 hread => ?_)
      rcases hat : mountAt r path with err | record
      · have hm : m = [] := by
          by_contra hm
          obtain ⟨record, hrecord⟩ := hread.2.1 (by rw [hw1.mounts, h0]; exact hm)
          exact nomatch hat.symm.trans hrecord
        exact .ret trivial (hm ▸ hw2)
      cases record with
      | none =>
        have hnone := readMountInfo_agrees hread hat
        rw [hw1.mounts] at hnone
        have hm : m = [] := by simpa using hnone
        exact .ret trivial (hm ▸ hw2)
      | some record =>
        refine .bind (holds_call fun r w3 hr => ?_)
        obtain ⟨⟨ch, hs⟩, hok, -⟩ := hr
        cases hok
        simp only [answer, serve, if_true, Option.some.injEq] at hs
        obtain ⟨-, rfl⟩ := (command_cases hs).resolve_right fun h => nomatch h.1
        exact ih ⟨hw2.directory, hw2.connected, congrArg List.tail hw2.mounts⟩

/-- **The mount step** leaves the mounts as they were when it fails. -/
theorem formatAndMount_holds (rounds : ℕ) (source fsType : Str) (hm : w₀.mounts = m) (hw : w.At true c m) :
    (formatAndMount rounds .request source path fsType).Meets (orderly path nqn w₀) (Undone true c m) w := by
  refine .bind (holds_call fun r w1 hr => ?_)
  have hw1 : w1.At true c m := by
    obtain ⟨⟨ch, hs⟩, -⟩ := hr
    simp only [answer, serve, if_true] at hs
    rcases Fate.answer_state hs with rfl | rfl
    · exact ⟨hw.directory, hw.connected, hw.mounts⟩
    · exact ⟨rfl, hw.connected, hw.mounts⟩
  rcases r with err | _
  · exact .ret trivial fun _ _ => hw1
  refine .bind ((verifyStagingMount_holds source fsType hw1).mono ?_)
  rintro r w2 - ⟨hw2, hempty⟩
  rcases r with err | mounted
  · exact .ret trivial fun _ _ => hw2
  cases mounted with
  | true => exact .ret trivial nofun
  | false =>
    have hnil := hempty rfl
    subst hnil
    refine .bind ((looks_holds (ensureFilesystemContext_looks .request source fsType) hw2).mono fun r w3 _ hw3 => ?_)
    rcases r with err | _
    · exact .ret trivial fun _ _ => hw3
    refine .bind (holds_call fun r w4 hr => ?_)
    obtain ⟨⟨ch, hs⟩, hlost, -⟩ := hr
    simp only [answer, serve, if_true, Option.some.injEq] at hs
    rcases command_cases hs with ⟨rfl, rfl⟩ | ⟨⟨f, rfl⟩, hstate⟩
    · -- mounted; if that is not found to be right, it is unmounted again
      have hw4 : Node.At true c [source] { w3 with done := w3.done.or ch.cancel, mounts := source :: w3.mounts } :=
        ⟨hw3.directory, hw3.connected, congrArg (source :: ·) hw3.mounts⟩
      refine .bind ((verifyStagingMount_holds source fsType hw4).mono ?_)
      rintro r w5 - ⟨hw5, -⟩
      have hgiveUp (err : StageErr) : (unmount .request path rounds >>= fun _ => HostProc.fail err :
          HostProc (Except StageErr Bool)).Meets (orderly path nqn w₀) (Undone true c []) w5 :=
        .bind ((unmount_holds hm rounds hw5).mono fun _ w6 _ hw6 => .ret trivial fun _ _ => hw6)
      rcases r with err | mounted
      · exact hgiveUp _
      cases mounted with
      | true => exact .ret trivial nofun
      | false => exact hgiveUp _
    · have hw4 : w4.At true c [] := by
        have hmounts := (hlost f rfl).trans hw3.mounts
        rcases hstate with rfl | rfl
        · exact ⟨hw3.directory, hw3.connected, hmounts⟩
        · exact ⟨hw3.directory, hw3.connected, hmounts⟩
      refine interruptedOr_holds hw4 (fun _ t ht _ _ => ht) fun t ht _ => .ret trivial fun _ _ => ht

/-! ### The whole call -/

/-- A failure of what comes after the connection leaves neither it nor the directory if the call made them. -/
theorem stageConnected_holds (hpath : stage.stagingTargetPath = path)
    (hnqn : stage.nqn = nqn) (polls rounds : ℕ) (createdConnection createdDirectory : Bool) (hm : w₀.mounts = m)
    (hw : w.At true c m) :
    (stageConnected polls rounds stage createdConnection createdDirectory).Meets (orderly path nqn w₀)
      (Undone (!createdDirectory) (c && !createdConnection) m) w := by
  have hgiveUp {t : Node} (status : Status) (ht : t.At true c m) :
      (rollback rounds stage false createdConnection createdDirectory >>= fun _ => HostProc.fail status :
        HostProc (Except Status Unit)).Meets (orderly path nqn w₀)
        (Undone (!createdDirectory) (c && !createdConnection) m) t := by
    refine .bind (.bind (.ret trivial ?_))
    refine (takeBack_holds hpath hnqn createdConnection createdDirectory ht).mono fun _ u _ hu => .ret trivial fun _ _ => ?_
    rwa [Bool.true_and] at hu
  have hreport {t : Node} (message err : Str) (ht : t.At true c m) :
      (nodeOperationError message err >>= fun status =>
        rollback rounds stage false createdConnection createdDirectory >>= fun _ => HostProc.fail status :
        HostProc (Except Status Unit)).Meets (orderly path nqn w₀)
        (Undone (!createdDirectory) (c && !createdConnection) m) t :=
    .bind ((looks_holds (nodeOperationError_looks message err) ht).mono fun status _ _ hu => hgiveUp status hu)
  subst hnqn
  refine .bind ((getDeviceByNQN_holds .request hw).mono ?_)
  rintro r w1 - ⟨hw1, -⟩
  rcases r with err | devPath
  · exact hreport _ _ hw1
  refine .bind ((looks_holds (waitForDevice_looks devPath polls) hw1).mono fun r w2 _ hw2 => ?_)
  rcases r with err | _
  · exact hreport _ _ hw2
  subst hpath
  refine .bind ((formatAndMount_holds rounds devPath stage.filesystem hm hw2).mono fun r w3 _ hr => ?_)
  cases r with
  | ok _ => exact .ret trivial nofun
  | error err =>
    have hw3 := hr err rfl
    cases err with
    | filesystemMismatch text => exact hgiveUp _ hw3
    | mountMismatch text => exact hgiveUp _ hw3
    | other err => exact hreport _ _ hw3

theorem connect_holds (hpath : stage.stagingTargetPath = path) (hnqn : stage.nqn = nqn)
    (polls rounds : ℕ) (createdDirectory : Bool) (hm : w₀.mounts = m) (hw : w.At true c m) :
    (connectRDMA .request stage.nqn stage.portalIP stage.portalPort stage.hostNQN >>= fun connected =>
      match connected with
      | .error (createdConnection, err) =>
        takeBack stage createdConnection createdDirectory >>= fun _ =>
        nodeOperationError "Failed to connect to NVMe-oF target" err.text >>= HostProc.fail
      | .ok createdConnection => stageConnected polls rounds stage createdConnection createdDirectory :
      HostProc (Except Status Unit)).Meets (orderly path nqn w₀) (Undone (!createdDirectory) c m) w := by
  have hfailed {t : Node} {c' : Bool} (createdConnection : Bool) (err : Err) (ht : t.At true c' m)
      (hc : (c' && !createdConnection) = c) :
      (takeBack stage createdConnection createdDirectory >>= fun _ =>
        nodeOperationError "Failed to connect to NVMe-oF target" err.text >>= HostProc.fail :
        HostProc (Except Status Unit)).Meets (orderly path nqn w₀) (Undone (!createdDirectory) c m) t := by
    refine .bind ((takeBack_holds hpath hnqn createdConnection createdDirectory ht).mono fun _ u _ hu => ?_)
    rw [Bool.true_and, hc] at hu
    exact .bind ((looks_holds (nodeOperationError_looks _ _) hu).mono fun _ v _ hv => .ret trivial fun _ _ => hv)
  have hstage {t : Node} {c' : Bool} (createdConnection : Bool) (ht : t.At true c' m) (hc : (c' && !createdConnection) = c) :
      (stageConnected polls rounds stage createdConnection createdDirectory).Meets (orderly path nqn w₀)
        (Undone (!createdDirectory) c m) t :=
    hc ▸ stageConnected_holds hpath hnqn polls rounds createdConnection createdDirectory hm ht
  subst hnqn
  refine .bind ((connectRDMA_holds stage.portalIP stage.portalPort stage.hostNQN hw).mono fun r t _ hr => ?_)
  match r, hr with
  | .ok false, ht => exact hstage false ht (by simp)
  | .ok true, ⟨hc, ht⟩ => exact hstage true ht (by simp [hc])
  | .error (false, err), ht => exact hfailed false err ht (by simp)
  | .error (true, err), ⟨hc, _, ht⟩ => exact hfailed true err ht (by simp [hc])

theorem stageVolume_holds (hpath : stage.stagingTargetPath = path) (hnqn : stage.nqn = nqn) (polls rounds : ℕ) :
    (stageVolume polls rounds stage).Meets (orderly path nqn w₀) (Undone w₀.directory w₀.connected w₀.mounts) w₀ := by
  refine .bind (holds_look rfl ⟨rfl, rfl, rfl⟩ fun r w1 hw1 hr => ?_)
  obtain ⟨⟨ch, hs⟩, -⟩ := hr
  simp only [answer, serve, hpath, if_true] at hs
  cases r with
  | ok _ =>
    have hserved := Fate.answer_ok hs
    have hd : w₀.directory = true := by
      by_contra hd
      simp [hd] at hserved
    rw [hd] at hw1 ⊢
    exact connect_holds hpath hnqn polls rounds false rfl hw1
  | error err =>
    dsimp only
    split
    · exact .ret trivial fun _ _ => hw1
    rename_i hnotFound
    have hserved := Fate.answer_notFound hs (by simpa using hnotFound)
    have hd : w₀.directory = false := by
      by_contra hd
      rw [Bool.not_eq_false] at hd
      simp [hd] at hserved
    rw [hd] at hw1 ⊢
    refine .bind (holds_call fun r w2 hr => ?_)
    obtain ⟨⟨ch, hs⟩, hlost, -⟩ := hr
    simp only [answer, serve, hpath, if_true] at hs
    rcases r with err | _
    · have hdirectory := (hlost err rfl).trans hw1.directory
      refine .ret trivial fun _ _ => ?_
      rcases Fate.answer_state hs with rfl | rfl
      · exact ⟨hdirectory, hw1.connected, hw1.mounts⟩
      · exact ⟨hdirectory, hw1.connected, hw1.mounts⟩
    cases Fate.answer_ok hs
    exact connect_holds hpath hnqn polls rounds true rfl ⟨rfl, hw1.connected, hw1.mounts⟩

end calls

/-- **Staging is all or nothing.**  In every run of orderly steps, a call that returns an error leaves the directory, the
connection and the mounts as they were before it. -/
theorem nodeStage_all_or_nothing [StdLib] (polls rounds : ℕ) (nodeID path nqn : Str) (req : NodeStageRequest)
    (hreq : ∀ stage, validateNodeStageRequest nodeID req = .ok stage → stage.stagingTargetPath = path ∧ stage.nqn = nqn)
    (w w' : Node) (status : Status)
    (hrun : Reaches (orderly path nqn w) (nodeStageVolume polls rounds nodeID req) w (.ret (.error status)) w') :
    w'.directory = w.directory ∧ w'.connected = w.connected ∧ w'.mounts = w.mounts := by
  have hholds : (nodeStageVolume polls rounds nodeID req).Meets (orderly path nqn w)
      (Undone w.directory w.connected w.mounts) w := by
    unfold nodeStageVolume
    cases hstage : validateNodeStageRequest nodeID req with
    | error status => exact .ret trivial fun _ _ => ⟨rfl, rfl, rfl⟩
    | ok stage => exact stageVolume_holds (hreq stage hstage).1 (hreq stage hstage).2 polls rounds
  have hend := (hrun.holds hholds).2 status rfl
  exact ⟨hend.directory, hend.connected, hend.mounts⟩

/-! ### Runs -/

section runs

attribute [local instance] asciiLib

theorem staged_valid (stage : ValidatedNodeStageRequest) (h : validateNodeStageRequest "n1" staged = .ok stage) :
    stage.stagingTargetPath = str "/s" ∧ stage.nqn = str "q" := by
  have hvalid : (validateNodeStageRequest "n1" staged).map (fun stage => (stage.stagingTargetPath, stage.nqn)) =
      .ok (str "/s", str "q") := by decide +kernel
  rw [h] at hvalid
  simpa [Except.map] using hvalid

/-- The connection in a listing. -/
def listed (state : Str) : Choice := { hosts := .ok [⟨[⟨"q", [⟨"nvme0", state⟩]⟩]⟩] }

def broken : Err := ⟨.other, "exit status 1"⟩

/-- A run in which the connection is made, but the device is not found then. -/
def undone : HostProc (Except Status Unit) × Node :=
  Prog.exec (fun ch c w => (answer "/s" "q" ch c w).filter fun a =>
      Orderly "/s" ⟨false, false, [], none⟩ c w a.1 a.2 ∧ (a.2.mounts ≠ [] → a.2.done = none))
    [{}, {}, {}, {}, {}, { fate := .fail broken }, {}, {}, {}, {}] (nodeStageVolume 0 1 "n1" staged) ⟨false, false, [], none⟩

theorem nodeStage_all_or_nothing_undone :
    undone.2.directory = false ∧ undone.2.connected = false ∧ undone.2.mounts = [] := by
  have hrun : Reaches (orderly "/s" "q" ⟨false, false, [], none⟩) (nodeStageVolume 0 1 "n1" staged)
      ⟨false, false, [], none⟩ undone.1 undone.2 := by
    refine reaches_of_exec (fun ch c w a h => ?_) _ _ _
    obtain ⟨hserve, ha⟩ := Option.filter_eq_some_iff.1 h
    exact ⟨⟨ch, hserve⟩, of_decide_eq_true ha⟩
  have hret : undone.1 = .ret (.error ⟨.internal,
      "Failed to locate block device for NQN q: nvme list-subsys failed: exit status 1, output: "⟩) :=
    eq_ret (by decide +kernel)
  rw [hret] at hrun
  exact nodeStage_all_or_nothing 0 1 "n1" "/s" "q" staged staged_valid _ _ _ hrun

/-- The cleanup succeeds. -/
def cleans : (c : HostCall) → c.Resp → Bool
  | .remove _, r => r.isOk
  | .nvmeDisconnect _ _, r => r.isOk
  | .umount _ _, r => r.isOk
  | _, _ => true

/-- The state after a call that fails, in a run with the given choices. -/
def failed (chs : List Choice) (w : Node) : Option Node :=
  let e := Prog.exec (fun ch c w => (answer "/s" "q" ch c w).filter fun a => cleans c a.1) chs
    (nodeStageVolume 0 1 "n1" staged) w
  match e.1 with
  | .ret (.error _) => some e.2
  | _ => none

theorem failed_reaches (chs : List Choice) {w w' : Node} (h : failed chs w = some w') :
    ∃ status, Reaches ((Server.of (answer "/s" "q")).where cleans) (nodeStageVolume 0 1 "n1" staged) w
      (.ret (.error status)) w' := by
  have hrun := reaches_exec_where (answer "/s" "q") cleans chs (nodeStageVolume 0 1 "n1" staged) w
  unfold failed at h
  dsimp only at h hrun
  split at h
  · rename_i status hret
    cases h
    rw [hret] at hrun
    exact ⟨status, hrun⟩
  · cases h

/-- With a connection that is there, up to `mount` and the call after it. -/
def mounting (mount next : Choice) : List Choice :=
  [{}, listed "live", listed "live", {}, {}, {}, { text := .ok "ext4" }, mount, next, {}, {}]

/-- What failed calls leave behind although every cleanup succeeds.  A connection that is still being established is torn
down when `nvme connect` refuses a second one; a mount stays that was made although the command failed; so does a mount
that cannot be examined once the request is cancelled; a connection stays that was made although the command failed;
and so does a directory. -/
theorem not_rolled_back :
    let S := (Server.of (answer "/s" "q")).where cleans
    let Fails (w w' : Node) := ∃ status, Reaches S (nodeStageVolume 0 1 "n1" staged) w (.ret (.error status)) w'
    Fails ⟨true, true, ["/dev/nvme0n1"], none⟩ ⟨true, false, ["/dev/nvme0n1"], none⟩ ∧
    Fails ⟨true, true, [], none⟩ ⟨true, true, ["/dev/nvme0n1"], none⟩ ∧
    Fails ⟨true, true, [], none⟩ ⟨true, true, ["/dev/nvme0n1"], some ⟨.canceled, "context canceled"⟩⟩ ∧
    Fails ⟨true, false, [], none⟩ ⟨true, true, [], none⟩ ∧
    Fails ⟨false, false, [], none⟩ ⟨true, false, [], none⟩ := by
  refine ⟨failed_reaches [{}, listed "connecting", {}, { fate := .fail broken, output := "Invalid argument" },
      {}, listed "connecting", {}, {}] (by decide +kernel),
    failed_reaches (mounting { fate := .lost broken } {}) (by decide +kernel),
    failed_reaches (mounting {} { table := .error broken, cancel := some ⟨.canceled, "context canceled"⟩ })
      (by decide +kernel),
    failed_reaches [{}, {}, {}, { fate := .lost broken }, {}, listed "live", { fate := .fail broken }, {}, {}]
      (by decide +kernel),
    failed_reaches [{}, { fate := .lost broken }] (by decide +kernel)⟩

end runs

end Distort.Staging
