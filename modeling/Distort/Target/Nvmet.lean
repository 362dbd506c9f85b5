import Mathlib.Data.List.AList
import Distort.Agent.BackendKernel
import Distort.Lib.Kube
import Distort.Lib.Server

/-!
The kernel target: `/sys/kernel/config/nvmet` as a state, and what the file operations do to it.

A link to a port is refused while the addresses of the port are not configured, and the directory of a subsystem
can be removed only when it has no namespaces, no allowed hosts and no link from a port.

* `Entry.of` — what a path names;
* `act` — a file operation that does not fail by itself;
* `answer` — any call of the kernel backend; it may fail, with or without its effect;
* `holds_fs` — the rule for one file operation.
-/

namespace Distort.Nvmet

open Go Lib Kube Agent Agent.Kernel Prog

/-! ### The tree -/

/-- What a path names. -/
inductive Entry where
  | root
  | subsystem (nqn : Str)
  | allowAny (nqn : Str)
  | allowedHosts (nqn : Str)
  | allowedHost (nqn host : Str)
  | namespaces (nqn : Str)
  | namespace (nqn name : Str)
  | namespaceFile (nqn name file : Str)
  | links
  | link (name : Str)
  | portFile (file : Str)
  | host (name : Str)
  | other

def Entry.of : Path → Entry
  | [] => .root
  | [top, a] => if top = str "subsystems" then .subsystem a else if top = str "hosts" then .host a else .other
  | [top, a, b] =>
    if top = str "subsystems" then
      if b = str "attr_allow_any_host" then .allowAny a
      else if b = str "allowed_hosts" then .allowedHosts a
      else if b = str "namespaces" then .namespaces a else .other
    else if top = str "ports" ∧ a = kernelPortID then
      if b = str "subsystems" then .links else .portFile b
    else .other
  | [top, a, b, c] =>
    if top = str "subsystems" then
      if b = str "allowed_hosts" then .allowedHost a c
      else if b = str "namespaces" then .namespace a c else .other
    else if top = str "ports" ∧ a = kernelPortID ∧ b = str "subsystems" then .link c
    else .other
  | [top, a, b, c, d] => if top = str "subsystems" ∧ b = str "namespaces" then .namespaceFile a c d else .other
  | _ => .other

section of

@[simp] theorem of_root : Entry.of [] = .root := rfl
variable (nqn : Str)

@[simp] theorem of_subsystemPath : Entry.of (subsystemPath nqn) = .subsystem nqn := rfl
@[simp] theorem of_allowAnyPath : Entry.of (allowAnyPath nqn) = .allowAny nqn := rfl
@[simp] theorem of_allowedHostsPath : Entry.of (allowedHostsPath nqn) = .allowedHosts nqn := rfl
@[simp] theorem of_allowedHostPath (host : Str) : Entry.of (allowedHostPath nqn host) = .allowedHost nqn host := rfl
@[simp] theorem of_namespacesPath : Entry.of (namespacesPath nqn) = .namespaces nqn := rfl
@[simp] theorem of_namespacePath (name : Str) : Entry.of (namespacePath nqn name) = .namespace nqn name := rfl
@[simp] theorem of_namespaceFile (name file : Str) :
    Entry.of (Kernel.namespaceFile nqn name file) = .namespaceFile nqn name file := rfl
@[simp] theorem of_linksPath : Entry.of linksPath = .links := rfl
@[simp] theorem of_linkPath (name : Str) : Entry.of (linkPath name) = .link name := rfl
@[simp] theorem of_hostPath (host : Str) : Entry.of (hostPath host) = .host host := rfl

end of

structure Namespace where
  devicePath : Str := []
  enabled : Bool := false

structure Subsystem where
  allowAny : Bool := false
  hosts : List Str := []
  namespaces : AList (fun _ : Str => Namespace) := ∅

/-- The port that all volumes share: its address files, and the targets of its links. -/
structure Port where
  values : Str → Str := fun _ => []
  links : AList (fun _ : Str => Path) := ∅

/-- The addresses of the port are configured. -/
def Port.configured (p : Port) : Bool :=
  [str "addr_adrfam", str "addr_trtype", str "addr_trsvcid", str "addr_traddr"].all fun file => p.values file ≠ []

structure Target where
  loaded : Bool := true
  mounted : Bool := true
  subsystems : Str → Option Subsystem := fun _ => none
  port : Option Port := none
  hosts : List Str := []
  /-- What the links of the other ports lead to. -/
  elsewhere : List Path := []

namespace Target

/-- The target of a link of the port. -/
def link (w : Target) (name : Str) : Option Path := w.port.bind fun p => p.links.lookup name

/-- Some link leads to the subsystem. -/
def linkedTo (w : Target) (nqn : Str) : Bool :=
  (w.port.elim [] fun p => p.links.entries.map Sigma.snd).contains (subsystemPath nqn) ||
    w.elsewhere.contains (subsystemPath nqn)

def setSubsystem (w : Target) (nqn : Str) (s : Option Subsystem) : Target :=
  { w with subsystems := Function.update w.subsystems nqn s }

/-- The subsystem is made if it is not there. -/
def ensureSubsystem (w : Target) (nqn : Str) : Target :=
  w.setSubsystem nqn (some ((w.subsystems nqn).getD {}))

def setPort (w : Target) (p : Port) : Target := { w with port := some p }

end Target

/-! ### File operations -/

def missing : Err := ⟨.notFound, "no such file or directory"⟩
def exists' : Err := ⟨.alreadyExists, "file exists"⟩
def invalid : Err := ⟨.other, "invalid argument"⟩
def busy : Err := ⟨.other, "device or resource busy"⟩

/-- The content of a flag. -/
def flag (b : Bool) : Str := if b then "1\n" else "0\n"

/-- An operation on something that has to be there. -/
def onSome {α β : Type} (o : Option α) (w : Target) (f : α → Except Err β × Target) : Except Err β × Target :=
  match o with
  | none => (.error missing, w)
  | some a => f a

def readFile (w : Target) : Entry → Except Err Str × Target
  | .allowAny nqn => onSome (w.subsystems nqn) w fun s => (.ok (flag s.allowAny), w)
  | .namespaceFile nqn name file =>
    onSome (w.subsystems nqn) w fun s => onSome (s.namespaces.lookup name) w fun ns =>
      if file = str "enable" then (.ok (flag ns.enabled), w)
      else if file = str "device_path" then (.ok (ns.devicePath ++ str "\n"), w)
      else (.error missing, w)
  | .portFile file => onSome w.port w fun p => (.ok (p.values file ++ str "\n"), w)
  | _ => (.error missing, w)

def writeFile (w : Target) (data : Str) : Entry → Except Err Unit × Target
  | .allowAny nqn =>
    onSome (w.subsystems nqn) w fun s => (.ok (), w.setSubsystem nqn (some { s with allowAny := data ≠ str "0" }))
  | .namespaceFile nqn name file =>
    onSome (w.subsystems nqn) w fun s => onSome (s.namespaces.lookup name) w fun ns =>
      let put (ns : Namespace) := w.setSubsystem nqn (some { s with namespaces := s.namespaces.insert name ns })
      if file = str "enable" then (.ok (), put { ns with enabled := data ≠ str "0" })
      else if file = str "device_path" then
        if ns.enabled then (.error busy, w) else (.ok (), put { ns with devicePath := data })
      else (.error missing, w)
  | .portFile file =>
    onSome w.port w fun p => (.ok (), w.setPort { p with values := Function.update p.values file data })
  | _ => (.error missing, w)

def readDir (w : Target) : Entry → Except Err (List Str) × Target
  | .allowedHosts nqn => onSome (w.subsystems nqn) w fun s => (.ok s.hosts, w)
  | .namespaces nqn => onSome (w.subsystems nqn) w fun s => (.ok s.namespaces.keys, w)
  | .links => onSome w.port w fun p => (.ok p.links.keys, w)
  | _ => (.error missing, w)

/-- Whether there is something of that name. -/
def present (w : Target) : Entry → Bool
  | .root => w.loaded && w.mounted
  | .subsystem nqn | .allowAny nqn | .allowedHosts nqn | .namespaces nqn => (w.subsystems nqn).isSome
  | .allowedHost nqn host => (w.subsystems nqn).any fun s => s.hosts.contains host
  | .namespace nqn name | .namespaceFile nqn name _ => (w.subsystems nqn).any fun s => s.namespaces.keys.contains name
  | .links | .portFile _ => w.port.isSome
  | .link name => (w.link name).isSome
  | .host name => w.hosts.contains name
  | .other => false

def remove (w : Target) : Entry → Except Err Unit × Target
  | .allowedHost nqn host =>
    onSome (w.subsystems nqn) w fun s =>
      if host ∈ s.hosts then
        (.ok (), w.setSubsystem nqn (some { s with hosts := s.hosts.filter fun h => h ≠ host }))
      else (.error missing, w)
  | .namespace nqn name =>
    onSome (w.subsystems nqn) w fun s =>
      if name ∈ s.namespaces then
        (.ok (), w.setSubsystem nqn (some { s with namespaces := s.namespaces.erase name }))
      else (.error missing, w)
  | .subsystem nqn =>
    onSome (w.subsystems nqn) w fun s =>
      if s.namespaces.keys = [] ∧ s.hosts = [] ∧ w.linkedTo nqn = false then (.ok (), w.setSubsystem nqn none)
      else (.error busy, w)
  | .link name =>
    onSome w.port w fun p =>
      if name ∈ p.links then (.ok (), w.setPort { p with links := p.links.erase name }) else (.error missing, w)
  | e => (.error (if present w e then busy else missing), w)

def mkdir (w : Target) : Entry → Except Err Unit × Target
  | .host name => if name ∈ w.hosts then (.error exists', w) else (.ok (), { w with hosts := name :: w.hosts })
  | _ => (.error invalid, w)

def mkdirAll (w : Target) : Entry → Except Err Unit × Target
  | .subsystem nqn | .namespaces nqn => (.ok (), w.ensureSubsystem nqn)
  | .namespace nqn name =>
    let s := (w.subsystems nqn).getD {}
    (.ok (), if name ∈ s.namespaces then w
      else w.setSubsystem nqn (some { s with namespaces := s.namespaces.insert name {} }))
  | .links => (.ok (), if w.port.isSome then w else w.setPort {})
  | _ => (.error invalid, w)

/-- A link of a port leads to a subsystem. -/
def linkable (w : Target) : Entry → Bool
  | .subsystem nqn => (w.subsystems nqn).isSome
  | _ => false

def symlink (w : Target) (target : Path) : Entry → Except Err Unit × Target
  | .allowedHost nqn host =>
    onSome (w.subsystems nqn) w fun s =>
      if host ∈ s.hosts then (.error exists', w)
      else if !present w (.of target) then (.error missing, w)
      else if s.allowAny || target ≠ hostPath host then (.error invalid, w)
      else (.ok (), w.setSubsystem nqn (some { s with hosts := s.hosts ++ [host] }))
  | .link name =>
    onSome w.port w fun p =>
      if name ∈ p.links then (.error exists', w)
      else if !linkable w (.of target) then (.error missing, w)
      else if !p.configured then (.error invalid, w)
      else (.ok (), w.setPort { p with links := p.links.insert name target })
  | _ => (.error invalid, w)

/-- What an operation does that does not fail by itself. -/
def act : (c : FsCall) → Target → c.Resp × Target
  | .readFile path, w => readFile w (.of path)
  | .writeFile path data, w => writeFile w data (.of path)
  | .readDir path, w => readDir w (.of path)
  | .readlink path, w =>
    match Entry.of path with
    | .link name => onSome (w.link name) w fun target => (.ok target, w)
    | _ => (.error missing, w)
  | .stat path, w => (if present w (.of path) then .ok () else .error missing, w)
  | .lstat path, w =>
    match Entry.of path with
    | .link name => (if (w.link name).isSome then .ok true else .error missing, w)
    | e => (if present w e then .ok false else .error missing, w)
  | .remove path, w => remove w (.of path)
  | .mkdir path, w => mkdir w (.of path)
  | .mkdirAll path, w => mkdirAll w (.of path)
  | .symlink target path, w => symlink w target (.of path)

/-! ### Single operations -/

namespace Target

@[simp] theorem link_setSubsystem (w : Target) (nqn : Str) (s : Option Subsystem) (name : Str) :
    (w.setSubsystem nqn s).link name = w.link name := rfl

@[simp] theorem subsystems_setSubsystem (w : Target) (nqn : Str) (s : Option Subsystem) :
    (w.setSubsystem nqn s).subsystems nqn = s := Function.update_self ..

theorem subsystems_setSubsystem_ne (w : Target) {nqn other : Str} (h : other ≠ nqn) (s : Option Subsystem) :
    (w.setSubsystem nqn s).subsystems other = w.subsystems other := Function.update_of_ne h ..

@[simp] theorem subsystems_setPort (w : Target) (p : Port) : (w.setPort p).subsystems = w.subsystems := rfl

@[simp] theorem link_setPort (w : Target) (p : Port) (name : Str) : (w.setPort p).link name = p.links.lookup name := rfl

end Target

variable {c : FsCall}

section operations

variable {w : Target} {nqn host : Str} {s : Subsystem}

theorem act_remove_link (w : Target) (name other : Str) :
    (act (.remove (linkPath name)) w).2.link other = if other = name then none else w.link other := by
  simp only [act, of_linkPath, remove]
  cases hp : w.port with
  | none => simp [onSome, Target.link, hp]
  | some p =>
    simp only [onSome]
    by_cases hn : name ∈ p.links
    · rw [if_pos hn, Target.link_setPort]
      split
      · subst other
        exact AList.lookup_erase ..
      rename_i ho
      rw [AList.lookup_erase_ne ho, Target.link, hp]
      rfl
    · rw [if_neg hn]
      split
      · subst other
        rw [Target.link, hp]
        exact AList.lookup_eq_none.2 hn
      · rfl

theorem act_remove_link_subsystems (w : Target) (name : Str) :
    (act (.remove (linkPath name)) w).2.subsystems = w.subsystems := by
  simp only [act, of_linkPath, remove]
  cases w.port with
  | none => rfl
  | some p =>
    simp only [onSome]
    split <;> rfl

theorem act_unlink (w : Target) (nqn : Str) :
    (act (.remove (linkPath nqn)) w).2.link nqn = none ∧ (act (.remove (linkPath nqn)) w).2.subsystems = w.subsystems :=
  ⟨by rw [act_remove_link, if_pos rfl], act_remove_link_subsystems w nqn⟩

theorem act_readlink (w : Target) (name : Str) :
    act (.readlink (linkPath name)) w = ((w.link name).elim (.error missing) .ok, w) := by
  simp only [act, of_linkPath]
  cases w.link name <;> rfl

theorem act_readAllowAny (w : Target) (nqn : Str) :
    act (.readFile (allowAnyPath nqn)) w = ((w.subsystems nqn).elim (.error missing) fun s => .ok (flag s.allowAny), w) := by
  simp only [act, of_allowAnyPath, readFile]
  cases w.subsystems nqn <;> rfl

theorem act_listHosts (w : Target) (nqn : Str) :
    act (.readDir (allowedHostsPath nqn)) w = ((w.subsystems nqn).elim (.error missing) fun s => .ok s.hosts, w) := by
  simp only [act, of_allowedHostsPath, readDir]
  cases w.subsystems nqn <;> rfl

theorem answered {α β : Type} {o : Option α} {f : α → β} {r : Except Err β} {b : β} {P : Err → Prop}
    (h : r = o.elim (.error missing) (fun a => .ok (f a)) ∨ ∃ err, P err ∧ r = .error err) (hr : r = .ok b) :
    ∃ a, o = some a ∧ f a = b := by
  rcases h with h | ⟨err, -, h⟩
  · cases o with
    | none => cases h.symm.trans hr
    | some a => exact ⟨a, rfl, Except.ok.inj (h.symm.trans hr)⟩
  · cases h.symm.trans hr

theorem act_mkLinks (w : Target) : (∀ name, (act (.mkdirAll linksPath) w).2.link name = w.link name) ∧
    (act (.mkdirAll linksPath) w).2.subsystems = w.subsystems := by
  simp only [act, of_linksPath, mkdirAll]
  split
  · exact ⟨fun _ => rfl, rfl⟩
  rename_i hn
  refine ⟨fun name => ?_, rfl⟩
  rw [Target.link_setPort, Target.link, Option.not_isSome_iff_eq_none.1 hn]
  rfl

/-- An operation that only looks. -/
def looks : FsCall → Bool
  | .readFile _ | .readDir _ | .readlink _ | .stat _ | .lstat _ => true
  | _ => false

theorem onSome_snd {α β : Type} {o : Option α} {f : α → Except Err β × Target} (h : ∀ a, (f a).2 = w) :
    (onSome o w f).2 = w := by
  cases o with
  | none => rfl
  | some a => exact h a

theorem act_look (hc : looks c = true) (w : Target) : (act c w).2 = w := by
  cases c with
  | readFile path =>
    simp only [act, readFile]
    split
    · exact onSome_snd fun _ => rfl
    · refine onSome_snd fun s => onSome_snd fun ns => ?_
      split
      · rfl
      · split <;> rfl
    · exact onSome_snd fun _ => rfl
    · rfl
  | readDir path =>
    simp only [act, readDir]
    split
    · exact onSome_snd fun _ => rfl
    · exact onSome_snd fun _ => rfl
    · exact onSome_snd fun _ => rfl
    · rfl
  | readlink path =>
    simp only [act]
    split
    · exact onSome_snd fun _ => rfl
    · rfl
  | lstat path =>
    simp only [act]
    split <;> rfl
  | stat path => rfl
  | _ => cases hc

/-- What an operation may do to the target. -/
inductive Move (c : FsCall) (w : Target) : Target → Prop
  | stay : Move c w w
  | host (name : Str) : Move c w { w with hosts := name :: w.hosts }
  | edit {nqn : Str} {s : Subsystem} (h : ∀ name ∈ s.namespaces,
      (∃ s₀, w.subsystems nqn = some s₀ ∧ name ∈ s₀.namespaces) ∨
        ∃ path, c = .mkdirAll path ∧ Entry.of path = .namespace nqn name) : Move c w (w.setSubsystem nqn (some s))
  | drop {nqn : Str} (h : w.linkedTo nqn = false) : Move c w (w.setSubsystem nqn none)
  | port {p : Port} (h : ∀ name target, p.links.lookup name = some target → w.link name = some target ∨
      linkable w (.of target) = true ∧ ∃ path, c = .symlink target path ∧ Entry.of path = .link name) :
      Move c w (w.setPort p)

theorem Move.onSome {α β : Type} {o : Option α} {f : α → Except Err β × Target}
    (h : ∀ a, o = some a → Move c w (f a).2) : Move c w (onSome o w f).2 := by
  cases o with
  | none => exact .stay
  | some a => exact h a rfl

theorem Move.ensure (nqn : Str) : Move c w (w.ensureSubsystem nqn) := by
  refine .edit fun name hname => .inl ?_
  cases hs : w.subsystems nqn with
  | none =>
    rw [hs] at hname
    exact absurd hname (AList.notMem_empty name)
  | some s =>
    rw [hs] at hname
    exact ⟨s, rfl, hname⟩

/-- **Every operation is such a move.** -/
theorem act_move (c : FsCall) (w : Target) : Move c w (act c w).2 := by
  cases c with
  | writeFile path data =>
    simp only [act, writeFile]
    split
    · exact .onSome fun s hs => .edit fun name hname => .inl ⟨s, hs, hname⟩
    · rename_i nqn name file _
      refine .onSome fun s hs => .onSome fun ns hns => ?_
      have hput : ∀ ns', Move (.writeFile path data) w
          (w.setSubsystem nqn (some { s with namespaces := s.namespaces.insert name ns' })) := by
        refine fun ns' => .edit fun other hother => .inl ⟨s, hs, ?_⟩
        rcases (AList.mem_insert _).1 hother with rfl | hother
        · exact AList.lookup_isSome.1 (by rw [hns]; rfl)
        · exact hother
      split
      · exact hput _
      split
      · split
        · exact .stay
        · exact hput _
      · exact .stay
    · refine .onSome fun p hp => .port fun name target ht => .inl ?_
      rw [Target.link, hp]
      exact ht
    · exact .stay
  | remove path =>
    simp only [act, remove]
    split
    · refine .onSome fun s hs => ?_
      split
      · exact .edit fun name hname => .inl ⟨s, hs, hname⟩
      · exact .stay
    · refine .onSome fun s hs => ?_
      split
      · exact .edit fun name hname => .inl ⟨s, hs, (AList.mem_erase.1 hname).2⟩
      · exact .stay
    · refine .onSome fun s hs => ?_
      split
      · rename_i hfree
        exact .drop hfree.2.2
      · exact .stay
    · rename_i name _
      refine .onSome fun p hp => ?_
      split
      · refine .port fun other target ht => .inl ?_
        by_cases ho : other = name
        · subst ho
          rw [AList.lookup_erase] at ht
          cases ht
        · rw [AList.lookup_erase_ne ho] at ht
          rw [Target.link, hp]
          exact ht
      · exact .stay
    · exact .stay
  | mkdir path =>
    simp only [act, mkdir]
    split
    · split
      · exact .stay
      · exact .host _
    · exact .stay
  | mkdirAll path =>
    simp only [act, mkdirAll]
    split
    · exact .ensure _
    · exact .ensure _
    · rename_i nqn name hpath
      split
      · exact .stay
      refine .edit fun other hother => ?_
      rcases (AList.mem_insert _).1 hother with rfl | hother
      · exact .inr ⟨path, rfl, hpath⟩
      cases hs : w.subsystems nqn with
      | none =>
        rw [hs] at hother
        exact absurd hother (AList.notMem_empty other)
      | some s =>
        rw [hs] at hother
        exact .inl ⟨s, rfl, hother⟩
    · split
      · exact .stay
      · exact .port fun name target ht => nomatch ht
    · exact .stay
  | symlink target path =>
    simp only [act, symlink]
    split
    · refine .onSome fun s hs => ?_
      repeat' split
      all_goals try exact .stay
      exact .edit fun name hname => .inl ⟨s, hs, hname⟩
    · rename_i name hpath
      refine .onSome fun p hp => ?_
      split
      · exact .stay
      split
      · exact .stay
      rename_i hlinkable
      split
      · exact .stay
      refine .port fun other target' ht => ?_
      by_cases ho : other = name
      · subst ho
        rw [AList.lookup_insert] at ht
        cases ht
        exact .inr ⟨by simpa using hlinkable, path, rfl, hpath⟩
      · rw [AList.lookup_insert_ne ho] at ht
        refine .inl ?_
        rw [Target.link, hp]
        exact ht
    · exact .stay
  | readFile path => exact (act_look (c := .readFile path) rfl w).symm ▸ .stay
  | readDir path => exact (act_look (c := .readDir path) rfl w).symm ▸ .stay
  | readlink path => exact (act_look (c := .readlink path) rfl w).symm ▸ .stay
  | stat path => exact .stay
  | lstat path => exact (act_look (c := .lstat path) rfl w).symm ▸ .stay

theorem act_write_link (w : Target) (path : Path) (data name : Str) :
    (act (.writeFile path data) w).2.link name = w.link name := by
  simp only [act]
  cases Entry.of path <;> try rfl
  · simp only [writeFile]
    cases w.subsystems _ <;> rfl
  · simp only [writeFile]
    cases w.subsystems _ with
    | none => rfl
    | some s =>
      simp only [onSome]
      cases s.namespaces.lookup _ with
      | none => rfl
      | some ns =>
        simp only
        split
        · rfl
        split
        · split <;> rfl
        · rfl
  · simp only [writeFile]
    cases hp : w.port with
    | none => rfl
    | some p =>
      simp only [onSome, Target.link_setPort]
      rw [Target.link, hp]
      rfl

theorem act_link (target : Path) (h : w.link nqn = none) :
    (∃ w', act (.symlink target (linkPath nqn)) w = (.ok (), w') ∧
      (∀ other, w'.link other = if other = nqn then some target else w.link other) ∧ w'.subsystems = w.subsystems) ∨
    ∃ err, act (.symlink target (linkPath nqn)) w = (.error err, w) ∧ err.isAlreadyExists = false := by
  simp only [act, of_linkPath, symlink]
  cases hp : w.port with
  | none => exact .inr ⟨missing, rfl, rfl⟩
  | some p =>
    have hn : nqn ∉ p.links := AList.lookup_eq_none.1 (by simpa [Target.link, hp] using h)
    simp only [onSome, hn, if_false]
    split
    · exact .inr ⟨missing, rfl, rfl⟩
    split
    · exact .inr ⟨invalid, rfl, rfl⟩
    refine .inl ⟨_, rfl, fun other => ?_, rfl⟩
    rw [Target.link_setPort]
    split
    · subst other
      exact AList.lookup_insert ..
    rename_i ho
    rw [AList.lookup_insert_ne ho, Target.link, hp]
    rfl

/-- A host that is allowed where none is, in a subsystem that does not allow all. -/
theorem act_allow (target : Path) (hs : w.subsystems nqn = some s) (hnil : s.hosts = []) :
    (∃ w', act (.symlink target (allowedHostPath nqn host)) w = (.ok (), w') ∧ w'.link nqn = w.link nqn ∧
      w'.subsystems nqn = some { s with hosts := [host] }) ∨
    ∃ err, act (.symlink target (allowedHostPath nqn host)) w = (.error err, w) ∧ err.isAlreadyExists = false := by
  simp only [act, of_allowedHostPath, symlink, hs, onSome, hnil, List.not_mem_nil, if_false]
  split
  · exact .inr ⟨missing, rfl, rfl⟩
  split
  · exact .inr ⟨invalid, rfl, rfl⟩
  · exact .inl ⟨_, rfl, rfl, by simp⟩

theorem act_disallow (host : Str) (hs : w.subsystems nqn = some s) :
    (act (.remove (allowedHostPath nqn host)) w).2.link nqn = w.link nqn ∧
      (act (.remove (allowedHostPath nqn host)) w).2.subsystems nqn =
        some { s with hosts := s.hosts.filter fun h => h ≠ host } := by
  simp only [act, of_allowedHostPath, remove, hs, onSome]
  split
  · exact ⟨rfl, by simp⟩
  rename_i hn
  refine ⟨rfl, ?_⟩
  have hsame : s.hosts.filter (fun h => h ≠ host) = s.hosts := by
    refine List.filter_eq_self.2 fun h hh => ?_
    exact decide_eq_true fun heq => hn (heq ▸ hh)
  rw [hs, hsame]

end operations

/-! ### The server -/

/-- The answer that reports an error. -/
def failed : (c : FsCall) → Err → c.Resp
  | .readFile _, err | .writeFile _ _, err | .readDir _, err | .readlink _, err | .stat _, err | .lstat _, err
  | .remove _, err | .mkdir _, err | .mkdirAll _, err | .symlink _ _, err => .error err

/-- What becomes of a call, and whether the context is done. -/
structure Choice where
  fate : Fate := .ok
  interrupted : Option Err := none

/-- Nothing fails. -/
def Choice.calm : Choice := {}

def fs (fate : Fate) (c : FsCall) (w : Target) : Option (c.Resp × Target) :=
  match fate with
  | .ok => some (act c w)
  | .fail err => if injected err then some (failed c err, w) else none
  | .lost err => if injected err then some (failed c err, (act c w).2) else none

/-- The calls of the kernel backend. -/
def answer (ch : Choice) : (c : Call) → Target → Option (c.Resp × Target)
  | .fs c, w => fs ch.fate c w
  | .proc .ctxErr, w => some (ch.interrupted, w)
  | .node (.loadModule name), w =>
    ch.fate.answer w (.ok (), if name = str "nvmet" then { w with loaded := true } else w)
  | .node .configFSMounted, w => some (w.mounted, w)
  | .node .mountConfigFS, w => ch.fate.answer w (.ok (), { w with mounted := true })
  | _, _ => none

/-- Anything may fail, and the context may be done at any moment. -/
def server : Server Call Call.Resp Target := .of answer

theorem fs_cases {fate : Fate} {w w' : Target} {r : c.Resp} (h : fs fate c w = some (r, w')) :
    act c w = (r, w') ∨ ∃ err, injected err = true ∧ r = failed c err ∧ (w' = w ∨ w' = (act c w).2) := by
  cases fate with
  | ok => exact .inl (Option.some.inj h)
  | fail err =>
    obtain ⟨hi, h⟩ := Option.ite_none_right_eq_some.1 h
    cases h
    exact .inr ⟨err, hi, rfl, .inl rfl⟩
  | lost err =>
    obtain ⟨hi, h⟩ := Option.ite_none_right_eq_some.1 h
    cases h
    exact .inr ⟨err, hi, rfl, .inr rfl⟩

variable {I K : Target → Prop} {w : Target}

theorem holds_fs {Q : c.Resp → Target → Prop} (hI : I w) (hI' : I (act c w).2) (hok : Q (act c w).1 (act c w).2)
    (herr : ∀ err w', injected err = true → w' = w ∨ w' = (act c w).2 → Q (failed c err) w') :
    (Proc.fs c).Holds server I Q w := by
  refine .op hI ?_
  rintro r w' ⟨ch, h⟩
  rcases fs_cases h with heq | ⟨err, hi, rfl, hw⟩
  · rw [heq] at hI' hok
    exact ⟨hI', hok⟩
  refine ⟨?_, herr err w' hi hw⟩
  rcases hw with rfl | rfl
  · exact hI
  · exact hI'

theorem holds_look {S : Server Call Call.Resp Target} (hS : S ≤ server) {Q : c.Resp → Target → Prop}
    (hI : I w) (hc : looks c = true)
    (hQ : ∀ r, r = (act c w).1 ∨ (∃ err, injected err = true ∧ r = failed c err) → Q r w) :
    (Proc.fs c).Holds S I Q w := by
  refine .op hI fun r w' h => ?_
  obtain ⟨ch, h⟩ := hS _ _ _ _ h
  rcases fs_cases h with heq | ⟨err, hi, rfl, hw⟩
  · obtain rfl : w' = w := (congrArg Prod.snd heq).symm.trans (act_look hc w)
    exact ⟨hI, hQ r (.inl (congrArg Prod.fst heq).symm)⟩
  · obtain rfl : w' = w := hw.elim id fun h => h.trans (act_look hc w)
    exact ⟨hI, hQ _ (.inr ⟨err, hi, rfl⟩)⟩

theorem holds_ctxErr {Q : Option Err → Target → Prop} (hI : I w) (hQ : ∀ r, Q r w) :
    (Proc.ctxErr).Holds server I Q w := by
  refine .op hI ?_
  rintro r w' ⟨ch, h⟩
  cases h
  exact ⟨hI, hQ _⟩

theorem not_tolerated {err : Err} (h : injected err = true) : err.isNotFound = false ∧ err.isAlreadyExists = false := by
  simp only [injected, Bool.and_eq_true, Bool.not_eq_true'] at h
  exact h.1

variable {wrap : Err → Err}

theorem holds_unless {p : Proc (Except Err Unit)} {tolerated : Err → Bool}
    (h : p.Holds server I (fun r t => (∀ err, r = .error err → tolerated err = true) → K t) w) :
    (p.check (fun err => if tolerated err then Proc.done () else Proc.fail (wrap err)) Proc.done).Holds server I
      (OnOk fun _ => K) w := by
  refine .check (h.mono fun r t hI hr => ?_)
  cases r with
  | error err =>
    dsimp only
    split
    · rename_i hn
      exact .ret hI (onOk_ok (hr fun _ he => Except.error.inj he ▸ hn))
    · exact .ret hI (onOk_error _)
  | ok _ => exact .ret hI (onOk_ok (hr nofun))

theorem holds_remove {path : Path} (hI : I w) (hI' : I (act (.remove path) w).2) (hK : K (act (.remove path) w).2) :
    (unlessMissing (Proc.fs (.remove path)) wrap).Holds server I (OnOk fun _ => K) w := by
  refine holds_unless (holds_fs hI hI' (fun _ => hK) ?_)
  intro err t hi _ htol
  have := htol err rfl
  rw [(not_tolerated hi).1] at this
  cases this

theorem holds_symlink {target path : Path} (hI : I w)
    (h : (∃ w', act (.symlink target path) w = (.ok (), w') ∧ I w' ∧ K w') ∨
      ∃ err, act (.symlink target path) w = (.error err, w) ∧ err.isAlreadyExists = false) :
    (unlessExists (Proc.fs (.symlink target path)) wrap).Holds server I (OnOk fun _ => K) w := by
  have hfail : ∀ (err : Err) (t : Target), injected err = true → t = w ∨ t = (act (.symlink target path) w).2 →
      (∀ e, (failed (.symlink target path) err : Except Err Unit) = .error e → e.isAlreadyExists = true) → K t := by
    intro err t hi _ htol
    have := htol err rfl
    rw [(not_tolerated hi).2] at this
    cases this
  rcases h with ⟨w', heq, hI', hK⟩ | ⟨err, heq, hne⟩
  · exact holds_unless (holds_fs hI (by rwa [heq]) (fun _ => by rwa [heq]) hfail)
  refine holds_unless (holds_fs hI (by rwa [heq]) (fun htol => ?_) hfail)
  have := htol err (by rw [heq])
  rw [hne] at this
  cases this

end Distort.Nvmet
