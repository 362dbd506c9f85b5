import Distort.Agent.HostAccess
import Distort.Health
import Distort.Identity
import Distort.Options

/-!
The kernel target backend: `backend_kernel.go`.

The values that an export needs are kept in a Go map there, and are read in an order that is not determined
(`StdLib.mapOrder`).
-/

namespace Distort.Agent.Kernel

open Go Lib Proc

variable [StdLib]

/-! ### Devices -/

def setupDevice (pciAddress deviceName : Str) (options : Options) : Proc (Except Err Unit) :=
  match Options.validate "kernel" options with
  | .error err => fail err
  | .ok _ =>
    (node (.resetSPDKDevice pciAddress)).check
      (fun err => fail (.wrapf "bind device %s to kernel NVMe driver: %w" [.str deviceName] err)) done

/-! ### Values -/

def kernelAddressFamily (portalIP : Str) : Except Err Str :=
  match Health.parseUsableIP portalIP with
  | .error err => .error (.wrapf "invalid kernel NVMe-oF portal IP: %w" [] err)
  | .ok ip => .ok (if ip.isV4 then "ipv4" else "ipv6")

def configValue (path : Path) : Proc (Except Err Str) :=
  (fs (.readFile path)).check fail fun value => done (trimSpace value)

def configValueMatches (path : Path) (expected : Str) : Proc Bool :=
  configValue path >>= fun actual => .ret (actual.toOption = some expected)

omit [StdLib] in
def kernelLinkMatches (nqn : Str) : Proc Bool :=
  fs (.readlink (linkPath nqn)) >>= fun target => .ret (target.toOption = some (subsystemPath nqn))

def namespacesPath (nqn : Str) : Path := ["subsystems", nqn, "namespaces"]
def namespacePath (nqn name : Str) : Path := ["subsystems", nqn, "namespaces", name]
def namespaceFile (nqn name file : Str) : Path := ["subsystems", nqn, "namespaces", name, file]
def portFile (file : Str) : Path := ["ports", kernelPortID, file]

/-- The files of the port, in the order in which they are written. -/
def portValues (addressFamily portalIP : Str) (portalPort : ℤ) : List (Str × Str) :=
  [("addr_adrfam", addressFamily), ("addr_trtype", "rdma"), ("addr_trsvcid", itoa portalPort), ("addr_traddr", portalIP)]

/-! ### The port -/

/-- All files have their values. -/
def allMatch : List (Str × Str) → Proc Bool
  | [] => .ret true
  | (name, value) :: values =>
    configValueMatches (portFile name) value >>= fun same => if same then allMatch values else .ret false

section

omit [StdLib]

/-- The targets of the links. -/
def readLinks : List Str → Proc (Except Err (List (Path × Path)))
  | [] => done []
  | entry :: entries =>
    (fs (.readlink (linkPath entry))).check
      (fun err => fail (.wrapf "read kernel target port link %s: %w" [text (linkPath entry)] err)) fun target =>
    (readLinks entries).check fail fun links => done ((linkPath entry, target) :: links)

def removeLinks : List (Path × Path) → Proc (Except Err Unit)
  | [] => done ()
  | link :: links =>
    (fs (.remove link.1)).check
      (fun err => fail (.wrapf "disconnect kernel target port link %s: %w" [text link.1] err)) fun _ =>
    removeLinks links

def restoreKernelPortLinks : List (Path × Path) → Proc (Except Err Unit)
  | [] => done ()
  | link :: links =>
    (unlessExists (fs (.symlink link.2 link.1))
      fun err => .wrapf "restore kernel target link %s: %w" [text link.1] err).check fail fun _ =>
    restoreKernelPortLinks links

def writePort : List (Str × Str) → Proc (Except Err Unit)
  | [] => done ()
  | (name, value) :: values =>
    (fs (.writeFile (portFile name) value)).check
      (fun err => fail (.wrapf "configure kernel target port %s: %w" [.str name] err)) fun _ =>
    writePort values

end

def ensureKernelPort (portalIP : Str) (portalPort : ℤ) : Proc (Except Err Unit) :=
  match kernelAddressFamily portalIP with
  | .error err => fail err
  | .ok addressFamily =>
    (fs (.mkdirAll linksPath)).check (fun err => fail (.wrapf "create kernel target port: %w" [] err)) fun _ =>
    allMatch (StdLib.mapOrder (portValues addressFamily portalIP portalPort)) >>= fun configured =>
    if configured then done ()
    else
      (fs (.readDir linksPath)).check (fun err => fail (.wrapf "list kernel target port links: %w" [] err)) fun entries =>
      (readLinks entries).check fail fun links =>
      (removeLinks links).check fail fun _ =>
      writePort (portValues addressFamily portalIP portalPort) >>= fun written =>
      -- from here on the links are restored in any case
      restoreKernelPortLinks links >>= fun restored =>
      .ret (match written with
        | .error err => .error err
        | .ok _ => restored)

/-! ### The namespace -/

omit [StdLib] in
def removeStaleNamespaces (nqn : Str) : List Str → Proc (Except Err Unit)
  | [] => done ()
  | entry :: entries =>
    if entry = str "1" then removeStaleNamespaces nqn entries
    else
      fs (.stat (namespaceFile nqn entry "enable")) >>= fun info =>
      (match info with
        | .ok _ =>
          (fs (.writeFile (namespaceFile nqn entry "enable") "0")).check
            (fun err => fail (.wrapf "disable stale kernel target namespace %s: %w" [.str entry] err)) done
        | .error err =>
          if err.isNotFound then done ()
          else fail (.wrapf "inspect stale kernel target namespace %s: %w" [.str entry] err) : Proc (Except Err Unit)).check
        fail fun _ =>
      (unlessMissing (fs (.remove (namespacePath nqn entry)))
        fun err => .wrapf "remove stale kernel target namespace %s: %w" [.str entry] err).check fail fun _ =>
      removeStaleNamespaces nqn entries

/-- The only namespace is the first one, with the block device and enabled. -/
def namespaceExact (nqn blockPath : Str) (entries : List Str) : Proc Bool :=
  if entries ≠ [str "1"] then .ret false
  else
    configValueMatches (namespaceFile nqn "1" "device_path") blockPath >>= fun device =>
    if device then configValueMatches (namespaceFile nqn "1" "enable") "1" else .ret false

omit [StdLib] in
def repairNamespace (nqn blockPath : Str) (entries : List Str) : Proc (Except Err Unit) :=
  (unlessMissing (fs (.remove (linkPath nqn)))
    fun err => .wrapf "disconnect kernel target namespace before repair: %w" [] err).check fail fun _ =>
  (removeStaleNamespaces nqn entries).check fail fun _ =>
  (fs (.mkdirAll (namespacePath nqn "1"))).check
    (fun err => fail (.wrapf "create kernel target namespace: %w" [] err)) fun _ =>
  (fs (.writeFile (namespaceFile nqn "1" "enable") "0")).check
    (fun err => fail (.wrapf "disable kernel target namespace before repair: %w" [] err)) fun _ =>
  (fs (.writeFile (namespaceFile nqn "1" "device_path") blockPath)).check
    (fun err => fail (.wrapf "set kernel target namespace device path: %w" [] err)) fun _ =>
  (fs (.writeFile (namespaceFile nqn "1" "enable") "1")).check
    (fun err => fail (.wrapf "enable kernel target namespace: %w" [] err)) done

def ensureKernelNamespace (nqn blockPath : Str) : Proc (Except Err Unit) :=
  (fs (.mkdirAll (namespacesPath nqn))).check
    (fun err => fail (.wrapf "create kernel target namespaces directory: %w" [] err)) fun _ =>
  (fs (.readDir (namespacesPath nqn))).check
    (fun err => fail (.wrapf "list kernel target namespaces: %w" [] err)) fun entries =>
  namespaceExact nqn blockPath entries >>= fun exact =>
  if exact then done () else repairNamespace nqn blockPath entries

/-! ### The file system -/

omit [StdLib] in
def ensureKernelConfigFS : Proc (Except Err Unit) :=
  fs (.stat []) >>= fun info =>
  match info with
  | .ok _ => done ()
  | .error err =>
    if !err.isNotFound then fail (.wrapf "inspect kernel NVMe target configfs: %w" [] err)
    else
      (node (.loadModule "nvmet")).check
        (fun err => fail (.wrapf "load kernel module %s: %w" [.str (str "nvmet")] err)) fun _ =>
      (node (.loadModule "nvmet-rdma")).check
        (fun err => fail (.wrapf "load kernel module %s: %w" [.str (str "nvmet-rdma")] err)) fun _ =>
      node .configFSMounted >>= fun mounted =>
      (if mounted then done () else node .mountConfigFS : Proc (Except Err Unit)).check
        (fun err => fail (.wrapf "mount configfs: %w" [] err)) fun _ =>
      (fs (.stat [])).check
        (fun err => fail (.wrapf "kernel NVMe target configfs is unavailable after setup: %w" [] err)) done

/-! ### Exports -/

/-- The files that an export consists of, with their values. -/
def requiredValues (nqn blockPath addressFamily portalIP : Str) (portalPort : ℤ) : List (Path × Str) :=
  [(allowAnyPath nqn, str "0"), (namespaceFile nqn "1" "device_path", blockPath),
    (namespaceFile nqn "1" "enable", str "1")] ++
    (portValues addressFamily portalIP portalPort).map fun v => (portFile v.1, v.2)

def checkValues : List (Path × Str) → Proc (Except Err Unit)
  | [] => done ()
  | (path, expected) :: values =>
    (configValue path).check (fun err => fail (.wrapf "read kernel export state %s: %w" [text path] err)) fun actual =>
    if actual ≠ expected then
      fail (.errorf "kernel export state %s is %q, want %q" [text path, .str actual, .str expected])
    else checkValues values

def checkExport : CheckExport := fun nqn blockPath portalIP portalPort options =>
  ctxErr >>= fun interrupted =>
  match interrupted with
  | some err => fail err
  | none =>
    match Options.validate "kernel" options with
    | .error err => fail err
    | .ok _ =>
      match kernelAddressFamily portalIP with
      | .error err => fail err
      | .ok addressFamily =>
        (checkValues (StdLib.mapOrder (requiredValues nqn blockPath addressFamily portalIP portalPort))).check fail fun _ =>
        (fs (.readDir (namespacesPath nqn))).check
          (fun err => fail (.wrapf "list kernel export namespaces: %w" [] err)) fun namespaces =>
        if namespaces ≠ [str "1"] then
          fail (.errorf "kernel subsystem %s must expose exactly namespace 1" [.str nqn])
        else
          kernelLinkMatches nqn >>= fun linked =>
          if !linked then
            fail (.errorf "kernel subsystem %s is not linked to port %s" [.str nqn, .str kernelPortID])
          else done ()

def exportVolume (volumeName blockPath portalIP : Str) (portalPort : ℤ) (options : Options) : Proc (Except Err Str) :=
  let nqn := Distort.VolumeIdentity.nqn volumeName
  ctxErr >>= fun interrupted =>
  match interrupted with
  | some err => fail err
  | none =>
    match Options.validate "kernel" options with
    | .error err => fail err
    | .ok _ =>
      match kernelAddressFamily portalIP with
      | .error err => fail err
      | .ok _ =>
        if portalPort < 1 ∨ portalPort > 65535 then
          fail (.errorf "kernel NVMe-oF portal port %d is invalid" [.int portalPort])
        else if trimSpace blockPath = [] then fail (.errorf "kernel NVMe-oF block path is empty" [])
        else
          ensureKernelConfigFS.check fail fun _ =>
          (fs (.mkdirAll (subsystemPath nqn))).check
            (fun err => fail (.wrapf "create kernel target subsystem %s: %w" [.str nqn] err)) fun _ =>
          (fs (.writeFile (allowAnyPath nqn) "0")).check
            (fun err => fail (.wrapf "disable unrestricted host access: %w" [] err)) fun _ =>
          (ensureKernelNamespace nqn blockPath).check fail fun _ =>
          (ensureKernelPort portalIP portalPort).check fail fun _ =>
          (ensureKernelSubsystemLink nqn).check fail fun _ =>
          (checkExport nqn blockPath portalIP portalPort options).check
            (fun err => fail (.wrapf "verify repaired kernel export %s: %w" [.str nqn] err)) fun _ =>
          done nqn

omit [StdLib] in
/-- What is done once all hosts are revoked. -/
def takeDown (nqn : Str) : Proc (Except Err Unit) :=
  (unlessMissing (fs (.remove (linkPath nqn))) fun err => .wrapf "failed to remove port symlink: %w" [] err).check
    fail fun _ =>
  (unlessMissing (fs (.writeFile (namespaceFile nqn "1" "enable") "0"))
    fun err => .wrapf "failed to disable namespace: %w" [] err).check fail fun _ =>
  (unlessMissing (fs (.remove (namespacePath nqn "1")))
    fun err => .wrapf "failed to remove namespace: %w" [] err).check fail fun _ =>
  unlessMissing (fs (.remove (subsystemPath nqn))) fun err => .wrapf "failed to remove subsystem: %w" [] err

def unexportVolume (nqn : Str) : Proc (Except Err Unit) :=
  fs (.stat (subsystemPath nqn)) >>= fun info =>
  match info with
  | .error err =>
    if err.isNotFound then done ()
    else fail (.wrapf "inspect kernel target subsystem before unexport: %w" [] err)
  | .ok _ =>
    (reconcileHostAccess nqn []).check
      (fun err => fail (.wrapf "revoke kernel target host access before unexport: %w" [] err)) fun _ =>
    takeDown nqn

/-- `KernelBackend`. -/
def backend : TargetBackend where
  name := "kernel"
  setupDevice := setupDevice
  exportVolume := exportVolume
  unexportVolume := unexportVolume
  reconcileHostAccess := reconcileHostAccess
  checkExport := some checkExport

/-! ### What is asked for -/

omit [StdLib] in
/-- What a look at an export takes. -/
def inspects : Call → Bool
  | .fs (.readFile _) | .fs (.readDir _) | .fs (.readlink _) | .proc .ctxErr => true
  | _ => false

section only

variable {P : Call → Prop} (hP : ∀ c, inspects c = true → P c)
include hP

theorem checkValues_only (values : List (Path × Str)) : (checkValues values).Only P := by
  induction values with
  | nil => exact only_done ()
  | cons v values ih =>
    refine .next ?_ fun actual => ?_
    · exact .next (only_op (hP _ rfl)) fun _ => only_done _
    · split
      · exact only_fail _
      · exact ih

theorem checkExport_only (nqn blockPath portalIP : Str) (portalPort : ℤ) (options : Options) :
    (checkExport nqn blockPath portalIP portalPort options).Only P := by
  refine .bind (only_op (hP _ rfl)) fun interrupted => ?_
  split
  · exact only_fail _
  split
  · exact only_fail _
  split
  · exact only_fail _
  refine (checkValues_only hP _).next fun _ => ?_
  refine .next (only_op (hP _ rfl)) fun namespaces => ?_
  split
  · exact only_fail _
  refine .bind (Prog.Only.bind (only_op (hP _ rfl)) fun _ => trivial) fun linked => ?_
  split
  · exact only_fail _
  · exact only_done _

end only

end Distort.Agent.Kernel
