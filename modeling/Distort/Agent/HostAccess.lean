import Distort.Agent.Interface

/-!
`ReconcileHostAccess` of the two target backends: one host is made the only one that a subsystem
lets in, or none.

Both read what is allowed now, return if that is exact, and otherwise take away every host they
have read before they add the new one.
-/

namespace Distort.Agent

open Go Lib Proc

/-- A call that a change of the hosts is made of. -/
def asksTarget : Call → Bool
  | .proc .ctxErr | .fs _ => true
  | .rpc .nvmfGetSubsystems | .rpc (.nvmfSubsystemAllowAnyHost _) | .rpc (.nvmfSubsystemRemoveHost _ _)
  | .rpc (.nvmfSubsystemAddHost _ _) => true
  | _ => false

/-! ### `backend_spdk.go` -/

variable (nqn : Str)

namespace Spdk

/-- The subsystem lets in exactly the wanted host, or nobody if none is wanted. -/
def exact (current : Subsystem) (hostNQN : Str) : Bool :=
  !current.allowAnyHost && (if hostNQN = [] then current.hosts = [] else current.hosts = [hostNQN])

def disableAnyHost (nqn : Str) (current : Subsystem) : Proc (Except Err Unit) :=
  if current.allowAnyHost then
    (rpc (.nvmfSubsystemAllowAnyHost nqn)).check
      (fun err => fail (.wrapf "disable unrestricted host access for %s: %w" [.str nqn] err)) done
  else done ()

/-- The loop over the hosts that were read. -/
def removeHosts (nqn : Str) : List Str → Proc (Except Err Unit)
  | [] => done ()
  | host :: hosts =>
    ctxErr >>= fun interrupted =>
    match interrupted with
    | some err => fail err
    | none =>
      (rpc (.nvmfSubsystemRemoveHost nqn host)).check
        (fun err => fail (.wrapf "disconnect and remove stale host %s from %s: %w" [.str host, .str nqn] err))
        fun _ => removeHosts nqn hosts

def authorizeHost (nqn hostNQN : Str) : Proc (Except Err Unit) :=
  if hostNQN ≠ [] then
    (rpc (.nvmfSubsystemAddHost nqn hostNQN)).check
      (fun err => fail (.wrapf "authorize host %s for %s: %w" [.str hostNQN, .str nqn] err)) done
  else done ()

def reconcileHostAccess (nqn hostNQN : Str) : Proc (Except Err Unit) :=
  ctxErr >>= fun interrupted =>
  match interrupted with
  | some err => fail err
  | none =>
    (rpc .nvmfGetSubsystems).check
      (fun err => fail (.wrapf "list SPDK subsystems before reconciling host access: %w" [] err)) fun subsystems =>
    match subsystems.find? fun s => s.nqn = nqn with
    | none => fail (.errorf "SPDK subsystem %s does not exist" [.str nqn])
    | some current =>
      if exact current hostNQN then done ()
      else
        (disableAnyHost nqn current).check fail fun _ =>
        (removeHosts nqn current.hosts).check fail fun _ =>
        authorizeHost nqn hostNQN

theorem removeHosts_only (hosts : List Str) : (removeHosts nqn hosts).Only (asksTarget ·) := by
  induction hosts with
  | nil => exact only_done ()
  | cons host hosts ih =>
    refine .bind (only_op rfl) fun interrupted => ?_
    cases interrupted with
    | some err => exact only_fail err
    | none => exact .next (only_op rfl) fun _ => ih

theorem reconcileHostAccess_only (host : Str) : (reconcileHostAccess nqn host).Only (asksTarget ·) := by
  refine .bind (only_op rfl) fun interrupted => ?_
  cases interrupted with
  | some err => exact only_fail err
  | none =>
    refine .next (only_op rfl) fun subsystems => ?_
    split
    · exact only_fail _
    split
    · exact only_done ()
    refine .next ?_ fun _ => Prog.Only.next (removeHosts_only nqn _) fun _ => ?_
    · unfold disableAnyHost
      split
      · exact .next (only_op rfl) only_done
      · exact only_done ()
    · unfold authorizeHost
      split
      · exact .next (only_op rfl) only_done
      · exact only_done ()

end Spdk

/-! ### `backend_kernel.go` -/

namespace Kernel

def kernelPortID : Str := "1"

def subsystemPath (nqn : Str) : Path := ["subsystems", nqn]
def allowAnyPath (nqn : Str) : Path := ["subsystems", nqn, "attr_allow_any_host"]
def allowedHostsPath (nqn : Str) : Path := ["subsystems", nqn, "allowed_hosts"]
def allowedHostPath (nqn host : Str) : Path := ["subsystems", nqn, "allowed_hosts", host]
def linksPath : Path := ["ports", kernelPortID, "subsystems"]
def linkPath (nqn : Str) : Path := ["ports", kernelPortID, "subsystems", nqn]
def hostPath (host : Str) : Path := ["hosts", host]

/-- An error that is not a missing file. -/
def unlessMissing (p : Proc (Except Err Unit)) (wrap : Err → Err) : Proc (Except Err Unit) :=
  p.check (fun err => if err.isNotFound then done () else fail (wrap err)) done

/-- An error that is not a file that exists already. -/
def unlessExists (p : Proc (Except Err Unit)) (wrap : Err → Err) : Proc (Except Err Unit) :=
  p.check (fun err => if err.isAlreadyExists then done () else fail (wrap err)) done

def text (path : Path) : Arg := .str (str "/sys/kernel/config/nvmet/" ++ join path "/")

/-- What `ensureKernelSubsystemLink` does with a link that does not lead to the subsystem. -/
def clearLink (link : Path) : Proc (Except Err Unit) :=
  fs (.lstat link) >>= fun info =>
  match info with
  | .ok true =>
    (fs (.remove link)).check
      (fun err => fail (.wrapf "remove incorrect kernel target link %s: %w" [text link] err)) done
  | .ok false => fail (.errorf "kernel target link %s exists but is not a symlink" [text link])
  | .error err =>
    if err.isNotFound then done () else fail (.wrapf "inspect kernel target link %s: %w" [text link] err)

def ensureKernelSubsystemLink (nqn : Str) : Proc (Except Err Unit) :=
  fs (.readlink (linkPath nqn)) >>= fun target =>
  if target.toOption = some (subsystemPath nqn) then done ()
  else
    (clearLink (linkPath nqn)).check fail fun _ =>
    (fs (.mkdirAll linksPath)).check
      (fun err => fail (.wrapf "create kernel target link directory: %w" [] err)) fun _ =>
    (fs (.symlink (subsystemPath nqn) (linkPath nqn))).check
      (fun err => fail (.wrapf "link subsystem to kernel target port: %w" [] err)) done

/-- The policy file and the directory allow exactly the wanted host. -/
def exact [StdLib] (allowAny : Str) (entries : List Str) (hostNQN : Str) : Bool :=
  trimSpace allowAny = "0" && (if hostNQN = [] then entries = [] else entries = [hostNQN])

/-- The loop over the entries that were read. -/
def removeHosts (nqn : Str) : List Str → Proc (Except Err Unit)
  | [] => done ()
  | host :: hosts =>
    (unlessMissing (fs (.remove (allowedHostPath nqn host)))
      fun err => .wrapf "remove stale host %s from %s: %w" [.str host, .str nqn] err).check fail fun _ =>
    removeHosts nqn hosts

def authorizeHost (nqn hostNQN : Str) : Proc (Except Err Unit) :=
  if hostNQN ≠ [] then
    (unlessExists (fs (.mkdir (hostPath hostNQN)))
      fun err => .wrapf "create NVMe target host %s: %w" [.str hostNQN] err).check fail fun _ =>
    unlessExists (fs (.symlink (hostPath hostNQN) (allowedHostPath nqn hostNQN)))
      fun err => .wrapf "authorize host %s for %s: %w" [.str hostNQN, .str nqn] err
  else done ()

/-- The change itself: the subsystem stays disconnected until every stale host is gone. -/
def replaceHosts (nqn hostNQN : Str) (entries : List Str) : Proc (Except Err Unit) :=
  (unlessMissing (fs (.remove (linkPath nqn)))
    fun err => .wrapf "disconnect subsystem %s before changing host access: %w" [.str nqn] err).check fail fun _ =>
  (fs (.writeFile (allowAnyPath nqn) "0")).check
    (fun err => fail (.wrapf "disable unrestricted host access for %s: %w" [.str nqn] err)) fun _ =>
  (removeHosts nqn entries).check fail fun _ =>
  ctxErr >>= fun interrupted =>
  match interrupted with
  | some err => fail err
  | none =>
    (authorizeHost nqn hostNQN).check fail fun _ =>
    unlessExists (fs (.symlink (subsystemPath nqn) (linkPath nqn)))
      fun err => .wrapf "reconnect subsystem %s after changing host access: %w" [.str nqn] err

def reconcileHostAccess [StdLib] (nqn hostNQN : Str) : Proc (Except Err Unit) :=
  ctxErr >>= fun interrupted =>
  match interrupted with
  | some err => fail err
  | none =>
    (fs (.readFile (allowAnyPath nqn))).check
      (fun err => fail (.wrapf "read unrestricted host policy for %s: %w" [.str nqn] err)) fun allowAny =>
    (fs (.readDir (allowedHostsPath nqn))).check
      (fun err => fail (.wrapf "list allowed hosts for %s: %w" [.str nqn] err)) fun entries =>
    if exact allowAny entries hostNQN then ensureKernelSubsystemLink nqn
    else replaceHosts nqn hostNQN entries

theorem only_fs (c : FsCall) : (fs c).Only (asksTarget ·) := only_op rfl

theorem unless_only {p : Proc (Except Err Unit)} {tolerated : Err → Bool} (hp : p.Only (asksTarget ·)) (wrap : Err → Err) :
    (p.check (fun err => if tolerated err then done () else fail (wrap err)) done).Only (asksTarget ·) := by
  refine .check hp (fun err => ?_) only_done
  split
  · exact only_done ()
  · exact only_fail _

theorem removeHosts_only (hosts : List Str) : (removeHosts nqn hosts).Only (asksTarget ·) := by
  induction hosts with
  | nil => exact only_done ()
  | cons host hosts ih => exact .next (unless_only (only_fs _) _) fun _ => ih

theorem ensureLink_only : (ensureKernelSubsystemLink nqn).Only (asksTarget ·) := by
  refine .bind (only_op rfl) fun target => ?_
  split
  · exact only_done ()
  refine .next ?_ fun _ => Prog.Only.next (only_op rfl) fun _ => Prog.Only.next (only_op rfl) only_done
  refine .bind (only_op rfl) fun info => ?_
  split
  · exact .next (only_op rfl) only_done
  · exact only_fail _
  split
  · exact only_done ()
  · exact only_fail _

theorem replaceHosts_only (host : Str) (entries : List Str) : (replaceHosts nqn host entries).Only (asksTarget ·) := by
  refine .next (unless_only (only_fs _) _) fun _ =>
    Prog.Only.next (only_op rfl) fun _ =>
    Prog.Only.next (removeHosts_only nqn entries) fun _ =>
    Prog.Only.bind (only_op rfl) fun interrupted => ?_
  cases interrupted with
  | some err => exact only_fail err
  | none =>
    refine .next ?_ fun _ => unless_only (only_fs _) _
    unfold authorizeHost
    split
    · exact .next (unless_only (only_fs _) _) fun _ => unless_only (only_fs _) _
    · exact only_done ()

theorem reconcileHostAccess_only [StdLib] (host : Str) : (reconcileHostAccess nqn host).Only (asksTarget ·) := by
  refine .bind (only_op rfl) fun interrupted => ?_
  cases interrupted with
  | some err => exact only_fail err
  | none =>
    refine .next (only_op rfl) fun allowAny => Prog.Only.next (only_op rfl) fun entries => ?_
    split
    · exact ensureLink_only nqn
    · exact replaceHosts_only nqn host entries

end Kernel

end Distort.Agent
