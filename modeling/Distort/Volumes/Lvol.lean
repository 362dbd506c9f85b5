import Mathlib.Data.List.Nodup
import Distort.Agent.SpdkLvol
import Distort.Lib.Server

/-!
The SPDK volume manager on its target.

* `wanted` — what a deletion looks for; `resolve_some`, `resolve_none` say what was found;
* `Valid` — what SPDK keeps unique, and what its names stand for;
* `deleteVolume_holds` — a deletion removes at most a volume that everything recorded stands for;
* `createVolume_holds` — a creation adds at most one volume, and returns the identity of the one with the name;
* `lvol_deletion_exact` — in every sequence of calls.
-/

namespace Distort.Volumes.Lvol

open Go Lib Lib.Kube Lib.Prog Agent Agent.SpdkLvol Proc

/-! ### Positions -/

variable {bdevs : List Bdev} {p : Bdev → Bool} {i : ℕ}

theorem mem_matchingBdevs : i ∈ matchingBdevs bdevs p ↔ ∃ b, bdevs[i]? = some b ∧ p b = true := by
  simp only [matchingBdevs, List.mem_map, List.mem_filter, Prod.exists, List.mem_zipIdx_iff_getElem?, exists_eq_right]

theorem matchingBdevs_nodup (bdevs : List Bdev) (p : Bdev → Bool) : (matchingBdevs bdevs p).Nodup := by
  have hsub : (matchingBdevs bdevs p).Sublist (bdevs.zipIdx.map Prod.snd) := List.filter_sublist.map _
  refine hsub.nodup ?_
  rw [List.zipIdx_map_snd]
  exact List.nodup_range'

theorem matchingBdevs_eq_nil : matchingBdevs bdevs p = [] ↔ ∀ b ∈ bdevs, p b = false := by
  rw [List.eq_nil_iff_forall_not_mem]
  constructor
  · intro h b hb
    obtain ⟨i, hi⟩ := List.mem_iff_getElem?.1 hb
    exact Bool.eq_false_iff.2 fun hp => h i (mem_matchingBdevs.2 ⟨b, hi, hp⟩)
  · intro h i hi
    obtain ⟨b, hb, hp⟩ := mem_matchingBdevs.1 hi
    exact absurd hp (Bool.eq_false_iff.1 (h b (List.mem_of_getElem? hb)))

theorem matchingBdevs_eq_singleton {b : Bdev} (hi : bdevs[i]? = some b)
    (hp : p b = true) (hone : ∀ j b', bdevs[j]? = some b' → p b' = true → j = i) : matchingBdevs bdevs p = [i] := by
  refine List.perm_singleton.1 ((List.perm_ext_iff_of_nodup (matchingBdevs_nodup bdevs p) (List.pairwise_singleton _ i)).2 ?_)
  intro j
  rw [mem_matchingBdevs, List.mem_singleton]
  constructor
  · rintro ⟨b', hj, hp'⟩
    exact hone j b' hj hp'
  · rintro rfl
    exact ⟨b, hi, hp⟩

/-! ### What a deletion looks for -/

/-- What is recorded about a volume, as conditions on it. -/
def recorded (identity : VolumeIdentity) : List (Bdev → Bool) :=
  let name := lvolAlias identity.volumeStoreName identity.volumeName
  (if identity.volumeUUID ≠ [] then [fun b => b.name = identity.volumeUUID || b.uuid = identity.volumeUUID] else []) ++
  (if identity.backendVolumeID ≠ [] then [fun b => named b identity.backendVolumeID] else []) ++
  (if identity.volumeStoreName ≠ [] ∧ identity.volumeName ≠ [] ∧ name ≠ identity.backendVolumeID then [fun b => named b name]
    else [])

/-- What a deletion looks for: all that is recorded, or else the name of the volume. -/
def wanted (volumeName : Str) (identity : VolumeIdentity) : List (Bdev → Bool) :=
  match recorded identity with
  | [] =>
    if volumeName ≠ [] then
      [fun b => b.name = volumeName || b.aliases.any fun a => a = volumeName || hasSuffix a (str "/" ++ volumeName)]
    else []
  | conditions => conditions

theorem persistedSelectors_found (bdevs : List Bdev) (identity : VolumeIdentity) :
    (persistedSelectors bdevs identity).map LvolSelector.found = (recorded identity).map (matchingBdevs bdevs) := by
  unfold persistedSelectors recorded
  simp only [List.map_append]
  congr 1
  · congr 1
    · split <;> rfl
    · split <;> rfl
  · split <;> rfl

theorem selectorsFor_found (bdevs : List Bdev) (volumeName : Str) (identity : VolumeIdentity) :
    (selectorsFor bdevs volumeName identity).map LvolSelector.found = (wanted volumeName identity).map (matchingBdevs bdevs) := by
  have hfound := persistedSelectors_found bdevs identity
  unfold selectorsFor wanted
  cases hpersisted : persistedSelectors bdevs identity with
  | nil =>
    rw [hpersisted] at hfound
    rw [List.map_eq_nil_iff.1 hfound.symm]
    dsimp only
    split <;> rfl
  | cons selector selectors =>
    rw [hpersisted] at hfound
    cases hrecorded : recorded identity with
    | nil =>
      rw [hrecorded] at hfound
      cases hfound
    | cons condition conditions =>
      rw [hrecorded] at hfound
      exact hfound

variable {selectors : List LvolSelector}

theorem combineSelectors_ok {found f : Option ℕ} {missing m : Bool}
    (h : combineSelectors selectors found missing = .ok (f, m)) :
    (∀ s ∈ selectors, s.found = [] ∨ ∃ i, f = some i ∧ s.found = [i]) ∧ (∀ i, found = some i → f = some i) ∧
      (m = false → missing = false ∧ ∀ s ∈ selectors, s.found ≠ []) := by
  induction selectors generalizing found missing with
  | nil =>
    obtain ⟨rfl, rfl⟩ := Prod.mk.inj (Except.ok.inj h)
    exact ⟨nofun, fun _ h => h, fun h => ⟨h, nofun⟩⟩
  | cons selector selectors ih =>
    rw [combineSelectors] at h
    split at h
    · rename_i hnil
      obtain ⟨hall, hkeep, hmissing⟩ := ih h
      refine ⟨fun s hs => ?_, hkeep, fun hm => nomatch (hmissing hm).1⟩
      rcases List.mem_cons.1 hs with rfl | hs
      · exact .inl hnil
      · exact hall s hs
    · rename_i i hone
      split at h
      · cases h
      rename_i hsame
      obtain ⟨hall, hkeep, hmissing⟩ := ih h
      have hf := hkeep i rfl
      refine ⟨fun s hs => ?_, fun j hj => ?_, fun hm => ⟨(hmissing hm).1, fun s hs => ?_⟩⟩
      · rcases List.mem_cons.1 hs with rfl | hs
        · exact .inr ⟨i, hf, hone⟩
        · exact hall s hs
      · subst hj
        have hij : j = i := by simpa using hsame
        rw [hij]
        exact hf
      · rcases List.mem_cons.1 hs with rfl | hs
        · rw [hone]
          exact List.cons_ne_nil _ _
        · exact (hmissing hm).2 s hs
    · cases h

theorem combineSelectors_all (h : ∀ s ∈ selectors, s.found = [i]) {found : Option ℕ}
    (hfound : found = none ∨ found = some i) (hne : selectors ≠ [] ∨ found = some i) :
    combineSelectors selectors found false = .ok (some i, false) := by
  induction selectors generalizing found with
  | nil =>
    rcases hne with hne | rfl
    · exact absurd rfl hne
    · rfl
  | cons selector selectors ih =>
    have hany : ¬(found.any (· ≠ i) = true) := by
      rcases hfound with rfl | rfl
      · simp
      · simp
    rw [combineSelectors, h selector List.mem_cons_self]
    dsimp only
    rw [if_neg hany]
    exact ih (fun s hs => h s (List.mem_cons_of_mem _ hs)) (.inr rfl) (.inr rfl)

theorem combineSelectors_none (h : ∀ s ∈ selectors, s.found = []) (missing : Bool) :
    ∃ m, combineSelectors selectors none missing = .ok (none, m) := by
  induction selectors generalizing missing with
  | nil => exact ⟨missing, rfl⟩
  | cons selector selectors ih =>
    rw [combineSelectors, h selector List.mem_cons_self]
    exact ih (fun s hs => h s (List.mem_cons_of_mem _ hs)) true

variable {identity : VolumeIdentity}

theorem forall_selectors {volumeName : Str} {l : List ℕ} : (∀ s ∈ selectorsFor bdevs volumeName identity, s.found = l) ↔
      ∀ p ∈ wanted volumeName identity, matchingBdevs bdevs p = l := by
  rw [← List.forall_mem_map (P := (· = l)), selectorsFor_found, List.forall_mem_map]

section resolve

variable {bdevs : List Bdev} {volumeName : Str} {identity : VolumeIdentity}

theorem selectorsFor_eq_nil : selectorsFor bdevs volumeName identity = [] ↔ wanted volumeName identity = [] := by
  rw [← List.map_eq_nil_iff, selectorsFor_found, List.map_eq_nil_iff]

theorem resolve_ok {r : Option Bdev} (h : resolveLvolForDeletion bdevs volumeName identity = .ok r) :
    (r = none ∧ ∀ p ∈ wanted volumeName identity, ∀ b ∈ bdevs, p b = false) ∨
      ∃ b i, r = some b ∧ bdevs[i]? = some b ∧ ∀ p ∈ wanted volumeName identity, matchingBdevs bdevs p = [i] := by
  unfold resolveLvolForDeletion at h
  split at h
  · cases h
  rename_i hne
  split at h
  · cases h
  · rename_i m hcombine
    -- no selector has found anything
    obtain ⟨hall, -, -⟩ := combineSelectors_ok hcombine
    refine .inl ⟨(Except.ok.inj h).symm, fun p hp => matchingBdevs_eq_nil.1 ?_⟩
    refine forall_selectors.1 (fun s hs => ?_) p hp
    rcases hall s hs with hnil | ⟨i, hi, -⟩
    · exact hnil
    · cases hi
  · rename_i i m hcombine
    split at h
    · cases h
    rename_i hm
    obtain ⟨hall, -, hmissing⟩ := combineSelectors_ok hcombine
    obtain ⟨-, hnonempty⟩ := hmissing (by simpa using hm)
    have hsame : ∀ s ∈ selectorsFor bdevs volumeName identity, s.found = [i] := by
      intro s hs
      rcases hall s hs with hnil | ⟨j, hj, hfound⟩
      · exact absurd hnil (hnonempty s hs)
      · rw [hfound, Option.some.inj hj]
    have hwanted := forall_selectors.1 hsame
    obtain ⟨p, hp⟩ := List.exists_mem_of_ne_nil _ (mt selectorsFor_eq_nil.2 hne)
    obtain ⟨b, hb, -⟩ := mem_matchingBdevs.1 ((hwanted p hp) ▸ List.mem_singleton_self i)
    exact .inr ⟨b, i, by rw [← Except.ok.inj h, hb], hb, hwanted⟩

theorem resolve_of_one (hne : wanted volumeName identity ≠ []) {b : Bdev} (hb : bdevs[i]? = some b)
    (h : ∀ p ∈ wanted volumeName identity, matchingBdevs bdevs p = [i]) :
    resolveLvolForDeletion bdevs volumeName identity = .ok (some b) := by
  unfold resolveLvolForDeletion
  split
  · rename_i hnil
    exact absurd (selectorsFor_eq_nil.1 hnil) hne
  · rename_i hsome
    rw [combineSelectors_all (forall_selectors.2 h) (.inl rfl) (.inl hsome)]
    exact congrArg Except.ok hb

theorem resolve_of_none (hne : wanted volumeName identity ≠ []) (h : ∀ p ∈ wanted volumeName identity, ∀ b ∈ bdevs, p b = false) :
    resolveLvolForDeletion bdevs volumeName identity = .ok none := by
  have hnil : ∀ p ∈ wanted volumeName identity, matchingBdevs bdevs p = [] := fun p hp => matchingBdevs_eq_nil.2 (h p hp)
  obtain ⟨m, hcombine⟩ := combineSelectors_none (forall_selectors.2 hnil) false
  unfold resolveLvolForDeletion
  split
  · rename_i hnil
    exact absurd (selectorsFor_eq_nil.1 hnil) hne
  · rw [hcombine]

end resolve

/-! ### The store of a volume -/

/-- The volume lies in the store that is recorded. -/
def inRecordedStore (stores : List Lvstore) (identity : VolumeIdentity) (b : Bdev) : Prop :=
  (identity.volumeStoreUUID ≠ [] → b.lvol = some identity.volumeStoreUUID) ∧
    (identity.volumeStoreName ≠ [] → ∃ store ∈ stores, store.name = identity.volumeStoreName ∧ b.lvol = some store.uuid)

variable {stores : List Lvstore}

theorem ownerStore_ok {found r : Option Lvstore}
    (h : ownerStore identity stores found = .ok r) : r = found ∨ ∃ store ∈ stores, r = some store := by
  induction stores generalizing found with
  | nil => exact .inl (Except.ok.inj h).symm
  | cons store stores ih =>
    rw [ownerStore] at h
    split at h
    · split at h
      · cases h
      rcases ih h with rfl | ⟨store', hmem, rfl⟩
      · exact .inr ⟨store, List.mem_cons_self, rfl⟩
      · exact .inr ⟨store', List.mem_cons_of_mem _ hmem, rfl⟩
    · rcases ih h with rfl | ⟨store', hmem, rfl⟩
      · exact .inl rfl
      · exact .inr ⟨store', List.mem_cons_of_mem _ hmem, rfl⟩

/-- A volume that reports its store is accepted only in the one that is recorded. -/
theorem validate_ok {b : Bdev} {u : Str} (hlvol : b.lvol = some u) (hu : u ≠ [])
    (h : validateLvolOwnership b stores identity = .ok ()) : inRecordedStore stores identity b := by
  unfold validateLvolOwnership at h
  split at h
  · cases h
  · split at h
    · cases h
    rename_i hnone
    rw [not_or, not_not, not_not] at hnone
    exact ⟨fun hne => absurd hnone.1 hne, fun hne => absurd hnone.2 hne⟩
  · rename_i store howner
    split at h
    · cases h
    rename_i huuid
    split at h
    · cases h
    rename_i hname
    split at h
    · cases h
    rw [hlvol] at h
    dsimp only at h
    split at h
    · cases h
    rename_i hstore
    have heq : u = store.uuid := by
      by_contra hne
      exact hstore ⟨hu, fun h => hne h.symm⟩
    obtain ⟨store', hmem, hsome⟩ : ∃ store' ∈ stores, some store = some store' := by
      rcases ownerStore_ok howner with hnone | hmem
      · cases hnone
      · exact hmem
    obtain rfl := Option.some.inj hsome
    refine ⟨fun hne => ?_, fun hne => ⟨store, hmem, ?_, ?_⟩⟩
    · rw [hlvol, heq]
      by_contra hdiff
      exact huuid ⟨hne, fun h => hdiff (congrArg some h)⟩
    · by_contra hdiff
      exact hname ⟨hne, hdiff⟩
    · rw [hlvol, heq]

/-! ### The target -/

/-- What the target lists. -/
structure Spdk where
  stores : List Lvstore
  bdevs : List Bdev
  deriving DecidableEq

def Spdk.without (w : Spdk) (b : Bdev) : Spdk := { w with bdevs := w.bdevs.filter fun x => x ≠ b }

def Spdk.with (w : Spdk) (b : Bdev) : Spdk := { w with bdevs := w.bdevs ++ [b] }

/-- What a volume is recorded under. -/
def lvolUUID (b : Bdev) : Str := if b.uuid = [] then b.name else b.uuid

/-- The bdev has the UUID, or is called by it. -/
def answers (b : Bdev) (uuid : Str) : Bool := b.name = uuid || b.uuid = uuid

/-- What SPDK keeps unique, and what it reports. -/
structure Unique (w : Spdk) : Prop where
  names : w.bdevs.Pairwise fun b b' => ∀ x, ¬(named b x = true ∧ named b' x = true)
  uuids : w.bdevs.Pairwise fun b b' => (b.lvol.isSome → answers b' (lvolUUID b) = false) ∧
    (b'.lvol.isSome → answers b (lvolUUID b') = false)
  storeUUIDs : (w.stores.map Lvstore.uuid).Nodup
  storeUUID : ∀ store ∈ w.stores, store.uuid ≠ []
  /-- A logical volume reports its store, and its alias is made of the names of both. -/
  lvol : ∀ b ∈ w.bdevs, ∀ u, b.lvol = some u → b.name ≠ [] ∧ (47 : UInt8) ∉ b.name ∧
    ∃ store ∈ w.stores, store.uuid = u ∧ ∃ name, b.aliases = [lvolAlias store.name name]
  /-- Nothing else has such an alias. -/
  other : ∀ b ∈ w.bdevs, b.lvol = none → ∀ store ∈ w.stores, ∀ name, named b (lvolAlias store.name name) = false

/-- The names of the stores tell them apart. -/
structure Valid (w : Spdk) : Prop extends Unique w where
  storeNames : (w.stores.map Lvstore.name).Nodup
  plain : ∀ store ∈ w.stores, (47 : UInt8) ∉ store.name

/-- What becomes of a call, and what a new volume is like. -/
structure Choice where
  outcome : Fate := .ok
  uuid : Str := []
  blockSize : ℕ := 0
  numBlocks : ℕ := 0

/-- A UUID that stands for nothing yet. -/
def fresh (bdevs : List Bdev) (uuid : Str) : Bool :=
  uuid ≠ [] && !uuid.contains 47 && bdevs.all fun b => !named b uuid && b.uuid ≠ uuid

def created (ch : Choice) (store : Lvstore) (name : Str) : Bdev where
  name := ch.uuid
  uuid := ch.uuid
  aliases := [lvolAlias store.name name]
  blockSize := ch.blockSize
  numBlocks := ch.numBlocks
  lvol := some store.uuid

def refused : Err := ⟨.other, "Invalid argument"⟩

def perform (ch : Choice) (w : Spdk) : (c : Rpc) → Option (c.Resp × Spdk)
  | .bdevLvolGetLvstores => ch.outcome.answerAny w (.ok w.stores, w)
  | .bdevGetBdevs none => ch.outcome.answerAny w (.ok w.bdevs, w)
  | .bdevLvolCreate store name _ =>
    match w.stores.find? fun s => s.name = store with
    | none => ch.outcome.answerAny w (.error refused, w)
    | some s =>
      if w.bdevs.any fun b => named b (lvolAlias s.name name) then ch.outcome.answerAny w (.error refused, w)
      else if fresh w.bdevs ch.uuid then ch.outcome.answerAny w (.ok ch.uuid, w.with (created ch s name))
      else none
  | .bdevLvolDelete name =>
    match w.bdevs.find? fun b => named b name with
    | none => ch.outcome.answerAny w (.error refused, w)
    | some b =>
      if b.lvol.isSome then ch.outcome.answerAny w (.ok (), w.without b) else ch.outcome.answerAny w (.error refused, w)
  | _ => none

/-- The calls of the volume manager. -/
def serve (ch : Choice) : (c : Call) → Spdk → Option (c.Resp × Spdk)
  | .rpc c, w => perform ch w c
  | _, _ => none

def server : Server Call Call.Resp Spdk := .of serve

theorem lvolAlias_inj {a a' name name' : Str} (ha : (47 : UInt8) ∉ a) (ha' : (47 : UInt8) ∉ a')
    (h : lvolAlias a name = lvolAlias a' name') : a = a' := by
  have htake : ∀ (a name : Str), (47 : UInt8) ∉ a → (lvolAlias a name).takeWhile (· ≠ 47) = a := by
    intro a name ha
    have hslash : str "/" ++ name = 47 :: name := rfl
    have hplain : ∀ x ∈ a, decide (x ≠ 47) = true := by
      intro x hx
      refine decide_eq_true ?_
      rintro rfl
      exact ha hx
    rw [lvolAlias, List.append_assoc, hslash, List.takeWhile_append_of_pos hplain, List.takeWhile_cons_of_neg (by decide),
      List.append_nil]
  rw [← htake a name ha, h, htake a' name' ha']

/-! ### What the names stand for -/

theorem named_iff {b : Bdev} {x : Str} : named b x = true ↔ b.name = x ∨ x ∈ b.aliases := by
  simp [named]

theorem mem_lvolAlias (a name : Str) : (47 : UInt8) ∈ lvolAlias a name :=
  List.mem_append_left _ (List.mem_append_right _ (by decide))

theorem pairwise_positions {α : Type} {R : α → α → Prop} {l : List α} (h : l.Pairwise R) (hsymm : ∀ a b, R a b → R b a) {j : ℕ}
    {a b : α} (hi : l[i]? = some a) (hj : l[j]? = some b) (hne : i ≠ j) : R a b := by
  obtain ⟨hi', rfl⟩ := List.getElem?_eq_some_iff.1 hi
  obtain ⟨hj', rfl⟩ := List.getElem?_eq_some_iff.1 hj
  rcases Nat.lt_or_gt_of_ne hne with hlt | hlt
  · exact List.pairwise_iff_getElem.1 h i j hi' hj' hlt
  · exact hsymm _ _ (List.pairwise_iff_getElem.1 h j i hj' hi' hlt)

section valid

variable {w : Spdk}

theorem Unique.position_of_named (h : Unique w) {j : ℕ} {b b' : Bdev} {x : Str} (hi : w.bdevs[i]? = some b)
    (hj : w.bdevs[j]? = some b') (hb : named b x = true) (hb' : named b' x = true) : j = i := by
  by_contra hne
  exact pairwise_positions h.names (fun _ _ hab x hx => hab x ⟨hx.2, hx.1⟩) hi hj (Ne.symm hne) x ⟨hb, hb'⟩

theorem Unique.nodup (h : Unique w) : w.bdevs.Nodup := by
  refine h.names.imp fun {b b'} hdiff heq => hdiff b.name ⟨named_iff.2 (.inl rfl), ?_⟩
  rw [← heq]
  exact named_iff.2 (.inl rfl)

theorem Unique.eq_of_named (h : Unique w) {b b' : Bdev} {x : Str} (hb : b ∈ w.bdevs) (hb' : b' ∈ w.bdevs)
    (hx : named b x = true) (hx' : named b' x = true) : b' = b := by
  obtain ⟨i, hi⟩ := List.mem_iff_getElem?.1 hb
  obtain ⟨j, hj⟩ := List.mem_iff_getElem?.1 hb'
  obtain rfl := h.position_of_named hi hj hx hx'
  exact Option.some.inj (hj.symm.trans hi)

theorem Unique.position_of_uuid (h : Unique w) {j : ℕ} {b b' : Bdev} (hlvol : b.lvol.isSome) (hi : w.bdevs[i]? = some b)
    (hj : w.bdevs[j]? = some b') (hb' : answers b' (lvolUUID b) = true) : j = i := by
  by_contra hne
  have := (pairwise_positions h.uuids (fun _ _ hab => hab.symm) hi hj (Ne.symm hne)).1 hlvol
  rw [this] at hb'
  cases hb'

theorem Unique.lvolUUID_ne_nil (h : Unique w) {b : Bdev} (hb : b ∈ w.bdevs) {u : Str} (hlvol : b.lvol = some u) :
    lvolUUID b ≠ [] := by
  unfold lvolUUID
  split
  · exact (h.lvol b hb u hlvol).1
  · assumption

theorem answers_lvolUUID (b : Bdev) : answers b (lvolUUID b) = true := by
  unfold answers lvolUUID
  split <;> simp

theorem Valid.store_eq (h : Valid w) {store store' : Lvstore} (hs : store ∈ w.stores) (hs' : store' ∈ w.stores)
    (heq : store.name = store'.name) : store = store' :=
  List.inj_on_of_nodup_map h.storeNames hs hs' heq

theorem Valid.lvol_of_alias (h : Valid w) {b : Bdev} (hb : b ∈ w.bdevs) {store : Lvstore} (hstore : store ∈ w.stores) {name : Str}
    (hname : named b (lvolAlias store.name name) = true) : b.lvol = some store.uuid := by
  cases hlvol : b.lvol with
  | none =>
    rw [h.other b hb hlvol store hstore name] at hname
    cases hname
  | some u =>
    obtain ⟨-, hplain, store', hstore', rfl, name', haliases⟩ := h.lvol b hb u hlvol
    rcases named_iff.1 hname with hname | hname
    · exact absurd (hname ▸ mem_lvolAlias _ _) hplain
    rw [haliases] at hname
    have hnames := lvolAlias_inj (h.plain store hstore) (h.plain store' hstore') (List.mem_singleton.1 hname)
    rw [h.store_eq hstore hstore' hnames]

/-- A volume that may be added. -/
structure New (w : Spdk) (store : Lvstore) (name : Str) (b : Bdev) : Prop where
  fresh : fresh w.bdevs b.uuid = true
  named_uuid : b.name = b.uuid
  aliases : b.aliases = [lvolAlias store.name name]
  lvol : b.lvol = some store.uuid
  free : ∀ x ∈ w.bdevs, named x (lvolAlias store.name name) = false

theorem fresh_iff {bdevs : List Bdev} {uuid : Str} : fresh bdevs uuid = true ↔
    uuid ≠ [] ∧ (47 : UInt8) ∉ uuid ∧ ∀ b ∈ bdevs, named b uuid = false ∧ b.uuid ≠ uuid := by
  simp [fresh, and_assoc]

/-- **A new volume keeps everything unique.** -/
theorem Valid.with (h : Valid w) {store : Lvstore} (hstore : store ∈ w.stores) {name : Str} {b : Bdev}
    (hnew : New w store name b) :
    Valid (w.with b) := by
  obtain ⟨hne, hplain, hfresh⟩ := fresh_iff.1 hnew.fresh
  have huuid : lvolUUID b = b.uuid := if_neg hne
  have hmem : ∀ {P : Bdev → Prop}, (∀ x ∈ w.bdevs, P x) → P b → ∀ x ∈ w.bdevs ++ [b], P x :=
    fun hP hPb => List.forall_mem_append.2 ⟨hP, List.forall_mem_singleton.2 hPb⟩
  refine ⟨⟨?_, ?_, h.storeUUIDs, h.storeUUID, hmem h.lvol ?_, hmem h.other ?_⟩, h.storeNames, h.plain⟩
  · refine List.pairwise_append.2 ⟨h.names, List.pairwise_singleton _ _, fun x hx y hy z hz => ?_⟩
    obtain rfl := List.mem_singleton.1 hy
    rcases named_iff.1 hz.2 with hz' | hz'
    · rw [hnew.named_uuid] at hz'
      rw [← hz', (hfresh x hx).1] at hz
      cases hz.1
    · rw [hnew.aliases] at hz'
      rw [List.mem_singleton.1 hz', hnew.free x hx] at hz
      cases hz.1
  · refine List.pairwise_append.2 ⟨h.uuids, List.pairwise_singleton _ _, fun x hx y hy => ?_⟩
    obtain rfl := List.mem_singleton.1 hy
    obtain ⟨hnamed, hother⟩ := hfresh x hx
    have hxname : x.name ≠ y.uuid := fun heq => by
      rw [named_iff.2 (.inl heq)] at hnamed
      cases hnamed
    refine ⟨fun _ => ?_, fun _ => ?_⟩
    · have hx' : lvolUUID x ≠ y.uuid := by
        unfold lvolUUID
        split
        · exact hxname
        · exact hother
      simp [answers, hnew.named_uuid, Ne.symm hx']
    · simp [answers, huuid, hxname, hother]
  · intro u hu
    refine ⟨by rw [hnew.named_uuid]; exact hne, by rw [hnew.named_uuid]; exact hplain, store, hstore, ?_, name, hnew.aliases⟩
    exact Option.some.inj (hnew.lvol.symm.trans hu)
  · intro hnone
    rw [hnew.lvol] at hnone
    cases hnone

theorem Valid.without (h : Valid w) (b : Bdev) : Valid (w.without b) :=
  ⟨⟨h.names.filter _, h.uuids.filter _, h.storeUUIDs, h.storeUUID, fun x hx => h.lvol x (List.mem_of_mem_filter hx),
    fun x hx => h.other x (List.mem_of_mem_filter hx)⟩, h.storeNames, h.plain⟩

end valid

/-! ### The calls -/

section holds

variable {I : Spdk → Prop} {w : Spdk}

section list

variable {α : Type} {Q : α → Spdk → Prop} {e : Err → Err} (hI : I w)

include hI

theorem listSPDKLvstores_holds {k : List Lvstore → Proc (Except Err α)} (hk : Holds server I (OnOk Q) (k w.stores) w) :
    Holds server I (OnOk Q) (listSPDKLvstores.check (fun err => fail (e err)) k) w := by
  refine .try (.try (.op hI fun r w' ⟨ch, hserve⟩ => ?_))
  obtain rfl : w' = w := (Fate.answerWith_state hserve).elim id id
  refine ⟨hI, fun l hl => ?_⟩
  subst hl
  obtain ⟨⟩ := Fate.answerWith_ok hserve
  exact .ret hI (onOk_ok hk)

theorem listSPDKBdevs_holds {k : List Bdev → Proc (Except Err α)} (hk : Holds server I (OnOk Q) (k w.bdevs) w) :
    Holds server I (OnOk Q) (listSPDKBdevs.check (fun err => fail (e err)) k) w := by
  refine .try (.try (.op hI fun r w' ⟨ch, hserve⟩ => ?_))
  obtain rfl : w' = w := (Fate.answerWith_state hserve).elim id id
  refine ⟨hI, fun l hl => ?_⟩
  subst hl
  obtain ⟨⟩ := Fate.answerWith_ok hserve
  exact .ret hI (onOk_ok hk)

end list

/-! ### Creation -/

/-- What a successful creation returns. -/
def Created (deviceName volumeName : Str) (sizeBytes : ℤ) (id : VolumeIdentity) (w : Spdk) : Prop :=
  ∃ store ∈ w.stores, ∃ b ∈ w.bdevs, ∃ allocated, lvstoreForBaseBdev w.stores deviceName = .ok store ∧
    named b (lvolAlias store.name volumeName) = true ∧ Capacity.roundUp sizeBytes = .ok allocated ∧
    spdkBdevCapacity b = .ok allocated ∧ id = lvolIdentity b store volumeName allocated

variable {store : Lvstore}

theorem lvstoreForBaseBdev_mem {deviceName : Str}
    (h : lvstoreForBaseBdev stores deviceName = .ok store) : store ∈ stores ∧ store.baseBdev = deviceName := by
  unfold lvstoreForBaseBdev at h
  split at h
  · rename_i store' hone
    obtain rfl := Except.ok.inj h
    have hmem := hone ▸ List.mem_singleton_self store'
    simpa using hmem
  · cases h

theorem findCreatedLvol_ok {bdevs : List Bdev} {name uuid : Str} {b : Bdev} (h : findCreatedLvol bdevs name uuid = .ok b) :
    (bdevs.filter fun b => (uuid ≠ [] && (b.name = uuid || b.uuid = uuid)) || named b name) = [b] := by
  unfold findCreatedLvol at h
  split at h
  · rename_i b' hone
    rw [hone, Except.ok.inj h]
  · cases h

theorem identityOf_ok {what : String} {b : Bdev} {volumeName : Str} {allocated : ℤ} {id : VolumeIdentity}
    (h : identityOf what b store volumeName allocated = .ok id) :
    spdkBdevCapacity b = .ok allocated ∧ id = lvolIdentity b store volumeName allocated := by
  unfold identityOf at h
  rcases hcapacity : spdkBdevCapacity b with err | actual
  · rw [hcapacity] at h
    cases h
  rw [hcapacity] at h
  by_cases heq : actual = allocated
  · subst heq
    simp only [bind, Except.bind, ne_eq, not_true_eq_false, if_false] at h
    exact ⟨rfl, (Except.ok.inj h).symm⟩
  · simp only [bind, Except.bind, ne_eq, heq, not_false_eq_true, if_true] at h
    cases h

theorem identityOf_eq {what : String} {b : Bdev} {volumeName : Str} {allocated : ℤ}
    (h : spdkBdevCapacity b = .ok allocated) :
    identityOf what b store volumeName allocated = .ok (lvolIdentity b store volumeName allocated) := by
  unfold identityOf
  simp only [h, bind, Except.bind, ne_eq, not_true_eq_false, if_false]
  rfl

theorem create_cases {store name : Str} {sizeMiB : ℤ} {r : Except Err Str} {w' : Spdk}
    (h : server (.rpc (.bdevLvolCreate store name sizeMiB)) w r w') : (w' = w ∧ ∃ err, r = .error err) ∨
      ∃ s ∈ w.stores, s.name = store ∧ ∃ b, New w s name b ∧ w' = w.with b ∧ ∀ uuid, r = .ok uuid → uuid = b.uuid := by
  obtain ⟨ch, hserve⟩ := h
  simp only [serve, perform] at hserve
  split at hserve
  · exact .inl (Fate.answerWith_refused hserve)
  rename_i s hfind
  split at hserve
  · exact .inl (Fate.answerWith_refused hserve)
  rename_i hfree
  obtain ⟨hfresh, hserve⟩ := Option.ite_none_right_eq_some.1 hserve
  have hstore : s.name = store := by simpa using List.find?_some hfind
  have hnew : New w s name (created ch s name) :=
    ⟨hfresh, rfl, rfl, rfl, fun x hx => Bool.eq_false_iff.2 fun hx' => hfree (List.any_eq_true.2 ⟨x, hx, hx'⟩)⟩
  have hmem := List.mem_of_find?_eq_some hfind
  rcases Fate.answerWith_cases hserve with ⟨rfl, rfl⟩ | ⟨err, rfl, -, rfl | rfl⟩
  · exact .inr ⟨s, hmem, hstore, _, hnew, rfl, fun uuid h => (Except.ok.inj h).symm⟩
  · exact .inl ⟨rfl, err, rfl⟩
  · exact .inr ⟨s, hmem, hstore, _, hnew, rfl, nofun⟩

/-- **Creation** adds at most one volume, a new one in the store of the device, where the name is not taken. -/
theorem createVolume_holds (h : Valid w) (hI : I w) (devicePath deviceName volumeName : Str) (sizeBytes : ℤ)
    (hadd : ∀ store, lvstoreForBaseBdev w.stores deviceName = .ok store → ∀ b, New w store volumeName b → I (w.with b)) :
    Holds server I (OnOk (Created deviceName volumeName sizeBytes))
      (createVolume devicePath deviceName volumeName sizeBytes) w := by
  unfold createVolume
  rcases hsize : Capacity.roundUp sizeBytes with err | allocated
  · exact .ret hI (onOk_error _)
  refine listSPDKLvstores_holds hI ?_
  rcases hbase : lvstoreForBaseBdev w.stores deviceName with err | store
  · exact .ret hI (onOk_error _)
  have hstore := (lvstoreForBaseBdev_mem hbase).1
  refine listSPDKBdevs_holds hI ?_
  cases hfind : findCreatedLvol w.bdevs (lvolAlias store.name volumeName) [] with
  | ok existing =>
    -- the volume that is there
    refine .ret hI fun id hid => ?_
    obtain ⟨hcapacity, rfl⟩ := identityOf_ok hid
    obtain ⟨hmem, hnamed⟩ := List.mem_filter.1 (findCreatedLvol_ok hfind ▸ List.mem_singleton_self existing)
    exact ⟨store, hstore, existing, hmem, allocated, hbase, by simpa using hnamed, hsize, hcapacity, rfl⟩
  | error err =>
    dsimp only
    split
    · exact .ret hI (onOk_error _)
    refine .try (.op hI fun r w' hr => ?_)
    rcases create_cases hr with ⟨rfl, err, rfl⟩ | ⟨s, hs, hname, b, hnew, rfl, huuid⟩
    · exact ⟨hI, onOk_error _⟩
    obtain rfl := h.store_eq hs hstore hname
    have hI' := hadd s hbase b hnew
    refine ⟨hI', fun uuid hr => ?_⟩
    obtain rfl := huuid uuid hr
    refine listSPDKBdevs_holds hI' ?_
    have hmem : b ∈ (w.with b).bdevs := List.mem_append_right _ (List.mem_singleton_self b)
    have hnamed : named b (lvolAlias s.name volumeName) = true :=
      named_iff.2 (.inr (hnew.aliases ▸ List.mem_singleton_self _))
    rcases hcreated : findCreatedLvol (w.with b).bdevs (lvolAlias s.name volumeName) b.uuid with err | found
    · exact .ret hI' (onOk_error _)
    -- the new volume has the alias, so it is the one that is found
    have hfound : found = b := by
      have hb : b ∈ [found] := by
        rw [← findCreatedLvol_ok hcreated]
        exact List.mem_filter.2 ⟨hmem, by rw [hnamed, Bool.or_true]⟩
      exact (List.mem_singleton.1 hb).symm
    subst hfound
    dsimp only
    rcases hidentity : identityOf "created" found s volumeName allocated with err | id
    · exact .ret hI' (onOk_error _)
    obtain ⟨hcapacity, rfl⟩ := identityOf_ok hidentity
    have hne := (fresh_iff.1 hnew.fresh).1
    have hsame : (if found.uuid ≠ [] then { lvolIdentity found s volumeName allocated with volumeUUID := found.uuid }
        else lvolIdentity found s volumeName allocated) = lvolIdentity found s volumeName allocated := by
      rw [if_pos hne, lvolIdentity, if_neg hne]
    refine .ret hI' (onOk_ok ⟨s, hstore, found, hmem, allocated, hbase, hnamed, hsize, hcapacity, hsame⟩)

/-! ### Deletion -/

theorem delete_cases (h : Unique w) {b : Bdev} (hb : b ∈ w.bdevs) {r : Except Err Unit} {w' : Spdk}
    (hstep : server (.rpc (.bdevLvolDelete b.name)) w r w') : w' = w ∨ (b.lvol.isSome ∧ w' = w.without b) := by
  obtain ⟨ch, hserve⟩ := hstep
  simp only [serve, perform] at hserve
  split at hserve
  · exact .inl (Fate.answerWith_refused hserve).1
  rename_i b' hfind
  have hnamed : named b' b.name = true := List.find?_some (p := fun x => named x b.name) hfind
  obtain rfl : b' = b := h.eq_of_named hb (List.mem_of_find?_eq_some hfind) (named_iff.2 (.inl rfl)) hnamed
  split at hserve
  · rename_i hlvol
    exact (Fate.answerWith_state hserve).imp_right fun hw => ⟨hlvol, hw⟩
  · exact .inl (Fate.answerWith_refused hserve).1

/-- **Deletion** removes at most one volume, one that is all that is looked for and lies in the recorded store; it succeeds
without only where there is nothing that is looked for. -/
theorem deleteVolume_holds (h : Unique w) (hI : I w) (devicePath deviceName volumeName : Str) (identity : VolumeIdentity)
    (hdrop : ∀ b ∈ w.bdevs, (∀ p ∈ wanted volumeName identity, p b = true) → b.lvol.isSome →
      inRecordedStore w.stores identity b → I (w.without b)) :
    Holds server I (OnOk fun _ w' => (w' = w ∧ ∀ p ∈ wanted volumeName identity, ∀ b ∈ w.bdevs, p b = false) ∨
      ∃ b ∈ w.bdevs, (∀ p ∈ wanted volumeName identity, p b = true) ∧ w' = w.without b)
      (deleteVolume devicePath deviceName volumeName identity) w := by
  refine listSPDKLvstores_holds hI ?_
  refine listSPDKBdevs_holds hI ?_
  rcases hresolve : resolveLvolForDeletion w.bdevs volumeName identity with err | candidate
  · exact .ret hI (onOk_error _)
  rcases resolve_ok hresolve with ⟨rfl, hnone⟩ | ⟨b, i, rfl, hi, hone⟩
  · exact .ret hI (onOk_ok (.inl ⟨rfl, hnone⟩))
  have hb := List.mem_of_getElem? hi
  have hwanted : ∀ p ∈ wanted volumeName identity, p b = true := by
    intro p hp
    obtain ⟨b', hb', hpb⟩ := mem_matchingBdevs.1 ((hone p hp) ▸ List.mem_singleton_self i)
    rwa [Option.some.inj (hi.symm.trans hb')]
  dsimp only
  rcases hvalidate : validateLvolOwnership b w.stores identity with err | _
  · exact .ret hI (onOk_error _)
  refine .bind (.op hI fun deleted w' hr => ?_)
  rcases delete_cases h hb hr with hw | ⟨hlvol, rfl⟩
  · -- it is still there, so it is found again
    rw [hw]
    refine ⟨hI, listSPDKBdevs_holds hI ?_⟩
    rw [hresolve]
    dsimp only
    split <;> exact .ret hI (onOk_error _)
  · obtain ⟨u, hu⟩ := Option.isSome_iff_exists.1 hlvol
    obtain ⟨-, -, store, hstore, rfl, -⟩ := h.lvol b hb u hu
    have hI' := hdrop b hb hwanted hlvol (validate_ok hu (h.storeUUID store hstore) hvalidate)
    refine ⟨hI', listSPDKBdevs_holds hI' ?_⟩
    split
    · exact .ret hI' (onOk_error _)
    · exact .ret hI' (onOk_ok (.inr ⟨b, hb, hwanted, rfl⟩))
    · split <;> exact .ret hI' (onOk_error _)

end holds

/-! ### When nothing fails -/

/-- The server that makes these choices. -/
def calmly (choose : Call → Spdk → Choice) (c : Call) (w : Spdk) : Option (c.Resp × Spdk) := serve (choose c w) c w

/-- The volume that a creation has returned, and what is wanted to delete it. -/
structure Known (w : Spdk) (store : Lvstore) (name : Str) (b : Bdev) : Prop where
  inStore : store ∈ w.stores
  listed : b ∈ w.bdevs
  called : named b (lvolAlias store.name name) = true

section known

variable {w : Spdk} {store : Lvstore} {name : Str} {b : Bdev} (h : Valid w) (hb : Known w store name b) (volumeName : Str)

include h hb

theorem Known.lvol : b.lvol = some store.uuid := h.lvol_of_alias hb.listed hb.inStore hb.called

theorem Known.wanted_eq (capacityBytes : ℤ) : wanted volumeName (lvolIdentity b store name capacityBytes) =
      [fun x => answers x (lvolUUID b), fun x => named x (lvolAlias store.name name)] := by
  have hne := h.lvolUUID_ne_nil hb.listed (hb.lvol h)
  have hname : lvolAlias store.name name ≠ [] := List.ne_nil_of_mem (mem_lvolAlias _ _)
  have hrecorded : recorded (lvolIdentity b store name capacityBytes) =
      [fun x => answers x (lvolUUID b), fun x => named x (lvolAlias store.name name)] := by
    have huuid : (lvolIdentity b store name capacityBytes).volumeUUID = lvolUUID b := rfl
    have hid : (lvolIdentity b store name capacityBytes).backendVolumeID = lvolAlias store.name name := rfl
    have hstore : (lvolIdentity b store name capacityBytes).volumeStoreName = store.name := rfl
    have hvolume : (lvolIdentity b store name capacityBytes).volumeName = name := rfl
    unfold recorded
    rw [huuid, hid, hstore, hvolume, if_pos hne, if_pos hname]
    dsimp only
    rw [if_neg fun hdiff => hdiff.2.2 rfl]
    rfl
  rw [wanted, hrecorded]

theorem Known.position : ∃ i, w.bdevs[i]? = some b ∧ ∀ volumeName capacityBytes,
    ∀ p ∈ wanted volumeName (lvolIdentity b store name capacityBytes), matchingBdevs w.bdevs p = [i] := by
  obtain ⟨i, hi⟩ := List.mem_iff_getElem?.1 hb.listed
  refine ⟨i, hi, fun volumeName capacityBytes p hp => ?_⟩
  rw [hb.wanted_eq h] at hp
  rcases List.mem_cons.1 hp with rfl | hp
  · exact matchingBdevs_eq_singleton hi (answers_lvolUUID b) fun j b' hj hb' =>
      h.position_of_uuid (by rw [hb.lvol h]; rfl) hi hj hb'
  · obtain rfl := List.mem_singleton.1 hp
    exact matchingBdevs_eq_singleton hi hb.called fun j b' hj hb' => h.position_of_named hi hj hb.called hb'

theorem Known.wanted_ne_nil (capacityBytes : ℤ) : wanted volumeName (lvolIdentity b store name capacityBytes) ≠ [] := by
  rw [hb.wanted_eq h]
  exact List.cons_ne_nil _ _

theorem Known.resolve (capacityBytes : ℤ) :
    resolveLvolForDeletion w.bdevs volumeName (lvolIdentity b store name capacityBytes) = .ok (some b) := by
  obtain ⟨i, hi, hone⟩ := hb.position h
  exact resolve_of_one (hb.wanted_ne_nil h volumeName capacityBytes) hi (hone volumeName capacityBytes)

theorem Known.eq_of_wanted {volumeName : Str} {capacityBytes : ℤ} {b' : Bdev} (hb' : b' ∈ w.bdevs)
    (hwanted : ∀ p ∈ wanted volumeName (lvolIdentity b store name capacityBytes), p b' = true) : b' = b := by
  rw [hb.wanted_eq h] at hwanted
  exact h.eq_of_named hb.listed hb' hb.called (hwanted _ (List.mem_cons_of_mem _ (List.mem_singleton_self _)))

theorem Known.resolve_without (capacityBytes : ℤ) :
    resolveLvolForDeletion (w.without b).bdevs volumeName (lvolIdentity b store name capacityBytes) = .ok none := by
  obtain ⟨i, hi, hone⟩ := hb.position h
  refine resolve_of_none (hb.wanted_ne_nil h volumeName capacityBytes) fun p hp b' hb' => Bool.eq_false_iff.2 fun hpb => ?_
  obtain ⟨hmem, hne⟩ := List.mem_filter.1 hb'
  obtain ⟨j, hj⟩ := List.mem_iff_getElem?.1 hmem
  have hji : j ∈ matchingBdevs w.bdevs p := mem_matchingBdevs.2 ⟨b', hj, hpb⟩
  rw [hone volumeName capacityBytes p hp] at hji
  rw [List.mem_singleton.1 hji] at hj
  exact of_decide_eq_true hne (Option.some.inj (hj.symm.trans hi))

omit h hb in
theorem ownerStore_of_one {identity : VolumeIdentity} (huuid : identity.volumeStoreUUID = store.uuid)
    (hne : store.uuid ≠ []) (hone : ∀ s ∈ stores, s.uuid = store.uuid ∨ s.name = identity.volumeStoreName → s = store)
    {found : Option Lvstore} (hfound : found = none ∨ found = some store) (hmem : store ∈ stores ∨ found = some store) :
    ownerStore identity stores found = .ok (some store) := by
  induction stores generalizing found with
  | nil =>
    rcases hmem with hmem | rfl
    · cases hmem
    · rfl
  | cons s stores ih =>
    have hone' := fun x hx => hone x (List.mem_cons_of_mem _ hx)
    rw [ownerStore]
    split
    · rename_i hmatch
      obtain rfl : s = store := by
        refine hone s List.mem_cons_self ?_
        rcases hmatch with ⟨-, heq⟩ | ⟨-, heq⟩
        · exact .inl (heq.trans huuid)
        · exact .inr heq
      have hany : ¬(found.any (fun t => t.uuid ≠ s.uuid) = true) := by
        rcases hfound with rfl | rfl
        · simp
        · simp
      rw [if_neg hany]
      exact ih hone' (.inr rfl) (.inr rfl)
    · rename_i hmatch
      refine ih hone' hfound (hmem.imp_left fun hmem => ?_)
      rcases List.mem_cons.1 hmem with rfl | hmem
      · exact absurd (.inl ⟨by rwa [huuid], huuid.symm⟩) hmatch
      · exact hmem

theorem Known.validate (capacityBytes : ℤ) :
    validateLvolOwnership b w.stores (lvolIdentity b store name capacityBytes) = .ok () := by
  have howner : ownerStore (lvolIdentity b store name capacityBytes) w.stores none = .ok (some store) := by
    refine ownerStore_of_one rfl (h.storeUUID store hb.inStore) (fun s hs heq => ?_) (.inl rfl) (.inl hb.inStore)
    rcases heq with heq | heq
    · exact List.inj_on_of_nodup_map h.storeUUIDs hs hb.inStore heq
    · exact h.store_eq hs hb.inStore heq
  unfold validateLvolOwnership
  rw [howner]
  dsimp only
  rw [if_neg fun hdiff => hdiff.2 rfl, if_neg fun hdiff => hdiff.2 rfl, if_neg fun hdiff => hdiff.2 rfl, hb.lvol h]
  exact if_neg fun hdiff => hdiff.2 rfl

end known

section calm

variable {choose : Call → Spdk → Choice} (hcalm : ∀ c w, (choose c w).outcome = .ok) {w : Spdk}

theorem yields_rpc (c : Rpc) {r : c.Resp} {w w' : Spdk} {Q : c.Resp → Spdk → Prop}
    (hc : perform (choose (.rpc c) w) w c = some (r, w')) (h : Q r w') : Yields (calmly choose) Q (.call (.rpc c) .ret) w :=
  .op (Call.rpc c) hc h

include hcalm

theorem answerAny_calm {α : Type} (c : Call) (w w' : Spdk) (served : Except Err α × Spdk) :
    (choose c w).outcome.answerAny w' served = some served := by
  rw [hcalm]
  rfl

variable {α : Type} {Q : α → Spdk → Prop} {f : Err → Proc α}

theorem listSPDKLvstores_yields {k : List Lvstore → Proc α} (hk : Yields (calmly choose) Q (k w.stores) w) :
    Yields (calmly choose) Q (listSPDKLvstores.check f k) w := by
  refine .check (.check (yields_rpc .bdevLvolGetLvstores (answerAny_calm hcalm _ _ _ _) ?_))
  exact ⟨_, rfl, .ret ⟨_, rfl, hk⟩⟩

theorem listSPDKBdevs_yields {k : List Bdev → Proc α} (hk : Yields (calmly choose) Q (k w.bdevs) w) :
    Yields (calmly choose) Q (listSPDKBdevs.check f k) w := by
  refine .check (.check (yields_rpc (.bdevGetBdevs none) (answerAny_calm hcalm _ _ _ _) ?_))
  exact ⟨_, rfl, .ret ⟨_, rfl, hk⟩⟩

variable (h : Valid w) {store : Lvstore} {name : Str} {b : Bdev} (hb : Known w store name b)

include h hb

theorem Known.deleteVolume_yields (devicePath deviceName : Str) (capacityBytes : ℤ) :
    Yields (calmly choose) (fun r w' => r = .ok () ∧ w' = w.without b)
      (deleteVolume devicePath deviceName name (lvolIdentity b store name capacityBytes)) w := by
  refine listSPDKLvstores_yields hcalm (listSPDKBdevs_yields hcalm ?_)
  rw [hb.resolve h name capacityBytes]
  dsimp only
  rw [hb.validate h capacityBytes]
  have hfind : w.bdevs.find? (fun x => named x b.name) = some b := by
    have hsome : (w.bdevs.find? fun x => named x b.name).isSome = true :=
      List.find?_isSome.2 ⟨b, hb.listed, named_iff.2 (.inl rfl)⟩
    obtain ⟨b', hb'⟩ := Option.isSome_iff_exists.1 hsome
    have hnamed : named b' b.name = true := List.find?_some (p := fun x => named x b.name) hb'
    rw [hb', h.eq_of_named hb.listed (List.mem_of_find?_eq_some hb') (named_iff.2 (.inl rfl)) hnamed]
  have hperform : perform (choose (.rpc (.bdevLvolDelete b.name)) w) w (.bdevLvolDelete b.name) = some (.ok (), w.without b) := by
    have hlvol : b.lvol.isSome = true := by
      rw [hb.lvol h]
      rfl
    rw [perform, hfind]
    dsimp only
    rw [if_pos hlvol, answerAny_calm hcalm]
  refine .bind (yields_rpc (.bdevLvolDelete b.name) hperform (listSPDKBdevs_yields hcalm ?_))
  rw [hb.resolve_without h name capacityBytes]
  exact .ret ⟨rfl, rfl⟩

theorem Known.createVolume_yields (devicePath deviceName : Str) {sizeBytes allocated : ℤ}
    (hbase : lvstoreForBaseBdev w.stores deviceName = .ok store) (hsize : Capacity.roundUp sizeBytes = .ok allocated)
    (hcapacity : spdkBdevCapacity b = .ok allocated) :
    Yields (calmly choose) (fun r w' => r = .ok (lvolIdentity b store name allocated) ∧ w' = w)
      (createVolume devicePath deviceName name sizeBytes) w := by
  unfold createVolume
  rw [hsize]
  refine listSPDKLvstores_yields hcalm ?_
  rw [hbase]
  refine listSPDKBdevs_yields hcalm ?_
  have hfilter : (w.bdevs.filter fun x => (decide (([] : Str) ≠ []) && (x.name = [] || x.uuid = [])) ||
      named x (lvolAlias store.name name)) = [b] := by
    have hsame : ∀ x ∈ w.bdevs, ((decide (([] : Str) ≠ []) && (decide (x.name = []) || decide (x.uuid = []))) ||
        named x (lvolAlias store.name name)) = (x == b) := by
      intro x hx
      by_cases hxb : x = b
      · simp [hxb, hb.called]
      have hother : named x (lvolAlias store.name name) = false :=
        Bool.eq_false_iff.2 fun hnamed => hxb (h.eq_of_named hb.listed hx hb.called hnamed)
      simp [hxb, hother]
    rw [List.filter_congr hsame, List.filter_beq, List.count_eq_one_of_mem h.nodup hb.listed, List.replicate_one]
  have hfind : findCreatedLvol w.bdevs (lvolAlias store.name name) [] = .ok b := by
    rw [findCreatedLvol, hfilter]
  rw [hfind]
  refine .ret ⟨identityOf_eq hcapacity, rfl⟩

end calm

/-! ### Any sequence of calls -/

/-- A call of the volume manager. -/
inductive Job where
  | create (devicePath deviceName volumeName : Str) (sizeBytes : ℤ)
  | delete (devicePath deviceName volumeName : Str) (identity : VolumeIdentity)

def Job.body : Job → Proc Unit
  | .create devicePath deviceName volumeName sizeBytes =>
    createVolume devicePath deviceName volumeName sizeBytes >>= fun _ => .ret ()
  | .delete devicePath deviceName volumeName identity =>
    deleteVolume devicePath deviceName volumeName identity >>= fun _ => .ret ()

theorem body_holds (j : Job) (w : Spdk) (h : Valid w) : Holds server Valid (fun _ _ => True) j.body w := by
  cases j with
  | create devicePath deviceName volumeName sizeBytes =>
    refine .bind ((createVolume_holds h h devicePath deviceName volumeName sizeBytes fun store hstore b hnew => ?_).mono ?_)
    · exact h.with (lvstoreForBaseBdev_mem hstore).1 hnew
    · exact fun _ _ hI _ => .ret hI trivial
  | delete devicePath deviceName volumeName identity =>
    refine .bind ((deleteVolume_holds h.toUnique h devicePath deviceName volumeName identity fun b _ _ _ _ => h.without b).mono ?_)
    exact fun _ _ hI _ => .ret hI trivial

theorem mem_wanted {volumeName : Str} (hp : p ∈ recorded identity) : p ∈ wanted volumeName identity := by
  unfold wanted
  split
  · rename_i hnil
    rw [hnil] at hp
    cases hp
  · exact hp

theorem Spdk.without_ne {w : Spdk} {b : Bdev} (hb : b ∈ w.bdevs) : w.without b ≠ w := by
  intro heq
  rw [← heq] at hb
  exact of_decide_eq_true (List.mem_filter.1 hb).2 rfl

/-- **Deletion is exact.**  After any sequence of calls,
* a successful creation returns the identity of the volume that has the alias of the name in the store of the device;
* with such an identity, a further creation changes nothing at any moment, returns the same identity if anything, and
  returns it when nothing fails; a deletion removes that volume at most, has done so when it succeeds, and succeeds when
  nothing fails;
* with any identity, a deletion removes at most one volume, and one that has the recorded UUID, the recorded name or alias,
  and the recorded store; it succeeds without only where nothing listed is what it looks for. -/
theorem lvol_deletion_exact {w₀ w : Spdk} (h₀ : Valid w₀) (h : Session (fun _ => server) Job.body w₀ w) : Valid w ∧
    (∀ devicePath deviceName volumeName sizeBytes, Holds server Valid (OnOk (Created deviceName volumeName sizeBytes))
      (createVolume devicePath deviceName volumeName sizeBytes) w) ∧
    (∀ deviceName volumeName sizeBytes id, Created deviceName volumeName sizeBytes id w →
      (∀ devicePath, Holds server (· = w) (OnOk fun id' _ => id' = id)
          (createVolume devicePath deviceName volumeName sizeBytes) w ∧
        ∀ choose : Call → Spdk → Choice, (∀ c w, (choose c w).outcome = .ok) →
          run (calmly choose) (createVolume devicePath deviceName volumeName sizeBytes) w = some (.ok id, w)) ∧
      ∃ b ∈ w.bdevs, named b id.backendVolumeID = true ∧ answers b id.volumeUUID = true ∧ ∀ devicePath deviceName,
        Holds server (fun w' => w' = w ∨ w' = w.without b) (OnOk fun _ w' => w' = w.without b)
          (deleteVolume devicePath deviceName volumeName id) w ∧
        ∀ choose : Call → Spdk → Choice, (∀ c w, (choose c w).outcome = .ok) →
          run (calmly choose) (deleteVolume devicePath deviceName volumeName id) w = some (.ok (), w.without b)) ∧
    ∀ devicePath deviceName volumeName identity, Holds server (fun w' => w' = w ∨ ∃ b ∈ w.bdevs, w' = w.without b ∧
          (identity.volumeUUID ≠ [] → answers b identity.volumeUUID = true) ∧
          (identity.backendVolumeID ≠ [] → named b identity.backendVolumeID = true) ∧ inRecordedStore w.stores identity b)
        (OnOk fun _ w' => w' = w → ∀ p ∈ wanted volumeName identity, ∀ b ∈ w.bdevs, p b = false)
        (deleteVolume devicePath deviceName volumeName identity) w := by
  have hvalid : Valid w := h.inv body_holds h₀
  refine ⟨hvalid, fun devicePath deviceName volumeName sizeBytes => ?_, fun deviceName volumeName sizeBytes id hid => ?_,
    fun devicePath deviceName volumeName identity => ?_⟩
  · exact createVolume_holds hvalid hvalid devicePath deviceName volumeName sizeBytes fun store hstore b hnew =>
      hvalid.with (lvstoreForBaseBdev_mem hstore).1 hnew
  · obtain ⟨store, hstore, b, hb, allocated, hbase, hnamed, hsize, hcapacity, rfl⟩ := hid
    have hknown : Known w store volumeName b := ⟨hstore, hb, hnamed⟩
    refine ⟨fun devicePath => ⟨?_, fun choose hcalm => ?_⟩, b, hb, hnamed, answers_lvolUUID b, fun devicePath deviceName' =>
      ⟨?_, fun choose hcalm => ?_⟩⟩
    · -- the alias is taken, so nothing is added, and it is found
      refine (createVolume_holds (I := (· = w)) hvalid rfl devicePath deviceName volumeName sizeBytes
        fun store' hstore' b' hnew => ?_).mono ?_
      · rw [hbase] at hstore'
        obtain rfl := Except.ok.inj hstore'
        rw [hnew.free b hb] at hnamed
        cases hnamed
      · intro r w' hw hr id hid
        rw [hw] at hr
        obtain ⟨store', hstore', b', hb', allocated', hbase', hnamed', hsize', -, hid'⟩ := hr id hid
        rw [hbase] at hbase'
        obtain rfl := Except.ok.inj hbase'
        rw [hsize] at hsize'
        obtain rfl := Except.ok.inj hsize'
        rw [hid', hvalid.eq_of_named hb hb' hnamed hnamed']
    · obtain ⟨r, w', hrun, rfl, rfl⟩ := hknown.createVolume_yields hcalm hvalid devicePath deviceName hbase hsize hcapacity
      exact hrun
    · refine (deleteVolume_holds (I := fun w' => w' = w ∨ w' = w.without b) hvalid.toUnique (.inl rfl) devicePath deviceName'
        volumeName _ fun b' hb' hwanted _ _ => ?_).mono ?_
      · rw [hknown.eq_of_wanted hvalid hb' hwanted]
        exact .inr rfl
      · intro r w' _ hr id hid
        rcases hr id hid with ⟨-, hnone⟩ | ⟨b', hb', hwanted, hw'⟩
        · -- it is there, so it is found
          have hresolve := hknown.resolve hvalid volumeName allocated
          rw [resolve_of_none (hknown.wanted_ne_nil hvalid volumeName allocated) hnone] at hresolve
          cases hresolve
        · rw [hw', hknown.eq_of_wanted hvalid hb' hwanted]
    · obtain ⟨r, w', hrun, rfl, rfl⟩ := hknown.deleteVolume_yields hcalm hvalid devicePath deviceName' allocated
      exact hrun
  · refine (deleteVolume_holds (I := fun w' => w' = w ∨ ∃ b ∈ w.bdevs, w' = w.without b ∧
      (identity.volumeUUID ≠ [] → answers b identity.volumeUUID = true) ∧
      (identity.backendVolumeID ≠ [] → named b identity.backendVolumeID = true) ∧ inRecordedStore w.stores identity b)
      hvalid.toUnique (.inl rfl) devicePath deviceName volumeName identity fun b hb hwanted _ hstore => ?_).mono ?_
    · refine .inr ⟨b, hb, rfl, fun hne => ?_, fun hne => ?_, hstore⟩
      · refine hwanted (fun x => answers x identity.volumeUUID) (mem_wanted ?_)
        rw [recorded, if_pos hne]
        exact List.mem_append_left _ List.mem_cons_self
      · refine hwanted (fun x => named x identity.backendVolumeID) (mem_wanted ?_)
        rw [recorded, if_pos hne]
        exact List.mem_append_left _ (List.mem_append_right _ List.mem_cons_self)
    · intro r w' _ hr u hu hw
      rcases hr u hu with ⟨-, hnone⟩ | ⟨b, hb, -, hw'⟩
      · exact hnone
      · exact absurd (hw'.symm.trans hw) (Spdk.without_ne hb)

section run

/-- One store for each of two devices, with given names. -/
def twoStores (name name' : Str) : Spdk := ⟨[⟨"ua", name, "d1"⟩, ⟨"ub", name', "d2"⟩], []⟩

/-- The first volume, of 4 MiB. -/
def firstVolume (name : Str) : Bdev := ⟨"u1", "u1", [name], 4096, 1024, some "ua"⟩

/-- The choices of a run that makes it. -/
def createChoices : List Choice := [{ }, { }, { uuid := "u1", blockSize := 4096, numBlocks := 1024 }, { }]

/-- Nothing fails. -/
def plainly (_ : Call) (_ : Spdk) : Choice := { }

theorem twoStores_unique (name name' : Str) : Unique (twoStores name name') := by
  have huuids : (twoStores name name').stores.map Lvstore.uuid = [str "ua", str "ub"] := rfl
  have hnonempty : ∀ u ∈ [str "ua", str "ub"], u ≠ [] := by decide
  refine ⟨.nil, .nil, by rw [huuids]; decide, fun store hstore => hnonempty _ ?_, nofun, nofun⟩
  rw [← huuids]
  exact List.mem_map_of_mem hstore

theorem session_create {w w' : Spdk} {j : Job} (h : (exec serve createChoices j.body w).2 = w') :
    Session (fun _ => server) Job.body w w' := by
  have hreach := reaches_exec serve createChoices j.body w
  rw [h] at hreach
  exact .step j (.refl w) hreach

theorem lvol_deletion_exact_first : Valid (twoStores "lvs_d1" "lvs_d2") ∧
      run (calmly plainly) (deleteVolume [] "d1" "v" (lvolIdentity (firstVolume "lvs_d1/v") ⟨"ua", "lvs_d1", "d1"⟩ "v" 4194304))
        ((twoStores "lvs_d1" "lvs_d2").with (firstVolume "lvs_d1/v")) = some (.ok (), twoStores "lvs_d1" "lvs_d2") := by
  have hvalid : Valid (twoStores "lvs_d1" "lvs_d2") := ⟨twoStores_unique _ _, by decide, by decide⟩
  have hcreate : (exec serve createChoices (Job.body (.create [] "d1" "v" 4194304)) (twoStores "lvs_d1" "lvs_d2")).2 =
      (twoStores "lvs_d1" "lvs_d2").with (firstVolume "lvs_d1/v") := by decide +kernel
  obtain ⟨-, -, hknown, -⟩ := lvol_deletion_exact hvalid (session_create hcreate)
  have hcreated : Created "d1" "v" 4194304 (lvolIdentity (firstVolume "lvs_d1/v") ⟨"ua", "lvs_d1", "d1"⟩ "v" 4194304)
      ((twoStores "lvs_d1" "lvs_d2").with (firstVolume "lvs_d1/v")) :=
    ⟨⟨"ua", "lvs_d1", "d1"⟩, by decide, firstVolume "lvs_d1/v", by decide, 4194304, rfl, by decide, rfl,
      spdkBdevCapacity_eq_ok.2 (by decide), rfl⟩
  obtain ⟨-, b, hb, -, -, hdelete⟩ := hknown _ _ _ _ hcreated
  obtain rfl := List.mem_singleton.1 hb
  exact ⟨hvalid, (hdelete [] "d1").2 plainly fun _ _ => rfl⟩

/-- The identity that is returned for the second device, whose store has a name that continues the one of the first. -/
def strayIdentity : VolumeIdentity := lvolIdentity (firstVolume "a/b/c") ⟨"ub", "a/b", "d2"⟩ "c" 4194304

/-- The identity that is returned where both stores have the same name. -/
def ambiguousIdentity : VolumeIdentity := lvolIdentity (firstVolume "s/v") ⟨"ua", "s", "d1"⟩ "v" 4194304

/-- Where an alias stands for names in two stores, a creation returns the volume of the other store; where two stores have
one name, the store of a volume cannot be told.  In both cases the volume cannot be deleted with the identity that was
returned for it. -/
theorem created_not_deleted : (Unique (twoStores "a" "a/b") ∧
      Session (fun _ => server) Job.body (twoStores "a" "a/b") ((twoStores "a" "a/b").with (firstVolume "a/b/c")) ∧
      run (calmly plainly) (createVolume [] "d2" "c" 4194304) ((twoStores "a" "a/b").with (firstVolume "a/b/c")) =
        some (.ok strayIdentity, (twoStores "a" "a/b").with (firstVolume "a/b/c")) ∧
      ∃ err, run (calmly plainly) (deleteVolume [] "d2" "c" strayIdentity) ((twoStores "a" "a/b").with (firstVolume "a/b/c")) =
        some (.error err, (twoStores "a" "a/b").with (firstVolume "a/b/c"))) ∧
    Unique (twoStores "s" "s") ∧
      Session (fun _ => server) Job.body (twoStores "s" "s") ((twoStores "s" "s").with (firstVolume "s/v")) ∧
      run (calmly plainly) (createVolume [] "d1" "v" 4194304) ((twoStores "s" "s").with (firstVolume "s/v")) =
        some (.ok ambiguousIdentity, (twoStores "s" "s").with (firstVolume "s/v")) ∧
      ∃ err, run (calmly plainly) (deleteVolume [] "d1" "v" ambiguousIdentity) ((twoStores "s" "s").with (firstVolume "s/v")) =
        some (.error err, (twoStores "s" "s").with (firstVolume "s/v")) := by
  have hslash : (exec serve createChoices (Job.body (.create [] "d1" "b/c" 4194304)) (twoStores "a" "a/b")).2 =
      (twoStores "a" "a/b").with (firstVolume "a/b/c") := by decide +kernel
  have hsame : (exec serve createChoices (Job.body (.create [] "d1" "v" 4194304)) (twoStores "s" "s")).2 =
      (twoStores "s" "s").with (firstVolume "s/v") := by decide +kernel
  exact ⟨⟨twoStores_unique _ _, session_create hslash, by decide +kernel, _, rfl⟩,
    twoStores_unique _ _, session_create hsame, by decide +kernel, _, rfl⟩

end run

end Distort.Volumes.Lvol
