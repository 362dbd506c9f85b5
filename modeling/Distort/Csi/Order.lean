import Distort.Csi.Validate

/-!
The order of the capabilities of a request: `validateVolumeCapabilities` of `volume_capability.go`.

The loop compares each filesystem that is stated with the one before, also one that is only white space; the filesystem
itself is resolved without those.

* `Settled f fs` — the comparison goes through, with `f` before the filesystems `fs`;
* `validation_unordered` — lists of the same capabilities have the same outcome, exactly if there are not both a blank
  filesystem and a named one in a request that is fine otherwise;
* `order_matters` — there the order matters.
-/

namespace Distort.Csi

open Go

section order

variable [StdLib] {parameters : Params} {capabilities capabilities' : List (Option VolumeCapability)} {f g : Str}

/-! ### The loop -/

/-- A mount without flags by a single writer. -/
def Usable (c : Option VolumeCapability) : Prop := ∃ fsType, c = some ⟨some ⟨fsType, []⟩, some supportedAccessMode⟩

/-- The filesystems that are stated, normalized; a blank one is empty then. -/
def stated (capabilities : List (Option VolumeCapability)) : List Str :=
  capabilities.filterMap fun c => (c.bind (·.mount)).bind fun m =>
    if m.fsType = [] then none else some (normalizeFilesystem m.fsType)

/-- Each is the one before, unless that is empty. -/
def Settled : Str → List Str → Prop
  | _, [] => True
  | f, g :: fs => (f ≠ [] → g = f) ∧ Settled g fs

theorem checkCapabilities_iff {index : ℕ} :
    checkCapabilities capabilities index f = .ok () ↔ (∀ c ∈ capabilities, Usable c) ∧ Settled f (stated capabilities) := by
  induction capabilities generalizing index f with
  | nil => simp [checkCapabilities, stated, Settled]
  | cons c capabilities ih =>
    rw [List.forall_mem_cons]
    rcases c with _ | ⟨_ | ⟨fsType, flags⟩, mode⟩
    · simp [checkCapabilities, Usable]
    · simp [checkCapabilities, Usable]
    · have husable : Usable (some ⟨some ⟨fsType, flags⟩, mode⟩) ↔ flags = [] ∧ mode = some supportedAccessMode := by
        simp [Usable]
      rw [checkCapabilities, husable]
      by_cases hflags : flags = []
      · by_cases hmode : mode = some supportedAccessMode
        · by_cases hfs : fsType = []
          · simp [hflags, hmode, hfs, ih, stated]
          · by_cases hsame : f ≠ [] ∧ normalizeFilesystem fsType ≠ f
            · simp [hflags, hmode, hfs, hsame, stated, Settled]
            · have hsettled : f ≠ [] → normalizeFilesystem fsType = f := fun hne => not_not.1 fun h => hsame ⟨hne, h⟩
              simp [hflags, hmode, hfs, hsame, ih, stated, Settled]
              exact fun _ _ => hsettled
        · simp only [hflags, hmode, ne_eq, not_true_eq_false, if_false, not_false_eq_true, if_true, and_false, false_and,
            iff_false]
          split <;> simp
      · simp [hflags]

section settled

omit [StdLib]

variable {fs gs : List Str}

theorem settled_of_ne (hf : f ≠ []) : Settled f fs ↔ ∀ g ∈ fs, g = f := by
  induction fs generalizing f with
  | nil => simp [Settled]
  | cons a fs ih =>
    rw [List.forall_mem_cons]
    constructor
    · rintro ⟨hsame, hrest⟩
      obtain rfl := hsame hf
      exact ⟨rfl, (ih hf).1 hrest⟩
    · rintro ⟨rfl, hrest⟩
      exact ⟨fun _ => rfl, (ih hf).2 hrest⟩

theorem settled_of_same (h : ∀ a ∈ fs, a = g) (hf : f = [] ∨ f = g) : Settled f fs := by
  induction fs generalizing f with
  | nil => trivial
  | cons a fs ih =>
    obtain ⟨rfl, hrest⟩ := List.forall_mem_cons.1 h
    exact ⟨fun hne => (hf.resolve_left hne).symm, ih hrest (.inr rfl)⟩

theorem settled_append (h : ∀ a ∈ fs, a = []) : Settled [] (fs ++ gs) ↔ Settled [] gs := by
  induction fs with
  | nil => rfl
  | cons a fs ih =>
    obtain ⟨rfl, hrest⟩ := List.forall_mem_cons.1 h
    rw [List.cons_append, ← ih hrest]
    exact and_iff_right fun hne => absurd rfl hne

theorem Settled.unique (h : Settled f fs) : ∀ a ∈ fs, a ≠ [] → ∀ b ∈ fs, b ≠ [] → a = b := by
  induction fs generalizing f with
  | nil => exact fun a ha => absurd ha List.not_mem_nil
  | cons c fs ih =>
    intro a ha hane b hb hbne
    by_cases hc : c = []
    · have hrest : ∀ d ∈ c :: fs, d ≠ [] → d ∈ fs := fun d hd hne =>
        (List.mem_cons.1 hd).resolve_left fun heq => hne (heq.trans hc)
      exact ih h.2 a (hrest a ha hane) hane b (hrest b hb hbne) hbne
    · have hall : ∀ d ∈ c :: fs, d = c := List.forall_mem_cons.2 ⟨rfl, (settled_of_ne hc).1 h.2⟩
      exact (hall a ha).trans (hall b hb).symm

end settled

/-! ### The filesystem -/

theorem mem_stated : f ∈ stated capabilities ↔ ∃ c ∈ capabilities, ∃ m, c.bind (·.mount) = some m ∧ m.fsType ≠ [] ∧
    normalizeFilesystem m.fsType = f := by
  simp only [stated, List.mem_filterMap, Option.bind_eq_some_iff, Option.ite_none_left_eq_some, Option.some.injEq, ne_eq]

theorem mem_named [StdLib.LawfulCase] : f ∈ named capabilities ↔ f ∈ stated capabilities ∧ f ≠ [] := by
  have hempty : trimSpace [] = [] := trimSpace_framed rfl
  have hblank : ∀ s : Str, trimSpace s = [] → normalizeFilesystem s = [] := by
    intro s hs
    rw [normalizeFilesystem, hs]
    exact StdLib.LawfulCase.toLower_lower rfl
  constructor
  · intro hf
    refine ⟨?_, ne_nil_of_named hf⟩
    obtain ⟨c, hc, hspelled⟩ := List.mem_filterMap.1 hf
    obtain ⟨m, hm, hspelled⟩ := Option.bind_eq_some_iff.1 hspelled
    obtain ⟨hne, hnorm⟩ := Option.ite_none_left_eq_some.1 hspelled
    refine mem_stated.2 ⟨c, hc, m, hm, fun h => hne ?_, Option.some.inj hnorm⟩
    rw [h, hempty]
  · rintro ⟨hf, hne⟩
    obtain ⟨c, hc, m, hm, -, rfl⟩ := mem_stated.1 hf
    refine List.mem_filterMap.2 ⟨c, hc, Option.bind_eq_some_iff.2 ⟨m, hm, ?_⟩⟩
    exact if_neg fun h => hne (hblank _ h)

theorem requestedFilesystem_of_same {requested : Str} (h : ∀ f ∈ named capabilities, f = g)
    (hr : requested = [] ∨ requested = g) :
    requestedFilesystem capabilities requested = .ok (if named capabilities = [] then requested else g) := by
  induction capabilities generalizing requested with
  | nil => rfl
  | cons c capabilities ih =>
    unfold requestedFilesystem
    cases hm : c.bind (·.mount) with
    | none =>
      have hskip : named (c :: capabilities) = named capabilities := by simp [named, hm]
      rw [hskip] at h ⊢
      exact ih h hr
    | some m =>
      by_cases hblank : trimSpace m.fsType = []
      · have hskip : named (c :: capabilities) = named capabilities := by simp [named, hm, spelled, hblank]
        rw [hskip] at h ⊢
        simp only [if_pos hblank]
        exact ih h hr
      · have hcons : named (c :: capabilities) = normalizeFilesystem m.fsType :: named capabilities := by
          simp [named, hm, spelled, hblank]
        rw [hcons] at h ⊢
        obtain ⟨hname, hrest⟩ := List.forall_mem_cons.1 h
        have hsame : ¬(requested ≠ [] ∧ g ≠ requested) := fun h => h.2 (hr.resolve_left h.1).symm
        simp only [if_neg hblank, hname, if_neg hsame, ih hrest (.inr rfl), ite_self, reduceCtorEq, if_false]

/-- The parameters name one supported filesystem, or none and `f` is supported. -/
def Supports (parameters : Params) (f : Str) : Prop :=
  match explicitFilesystems parameters with
  | [] => f ∈ supportedFilesystems
  | first :: rest => (∀ g ∈ rest, g = first) ∧ first ∈ supportedFilesystems

theorem resolveFilesystem_iff [StdLib.LawfulCase] (hg : g ∈ named capabilities) (h : ∀ f ∈ named capabilities, f = g) :
    (∃ f, resolveFilesystem parameters capabilities = .ok f) ↔ Supports parameters g := by
  have hvalid : ∀ f, (∃ f', validateFilesystem f = .ok f') ↔ f ∈ supportedFilesystems := by
    intro f
    unfold validateFilesystem
    split <;> simp [*]
  unfold resolveFilesystem Supports
  cases explicitFilesystems parameters with
  | nil =>
    have hne : named capabilities ≠ [] := List.ne_nil_of_mem hg
    have hreq := requestedFilesystem_of_same h (.inl rfl)
    rw [if_neg hne] at hreq
    simp only [hreq, bind, Except.bind, if_neg (ne_nil_of_named hg)]
    exact hvalid g
  | cons first rest =>
    by_cases hall : ∀ g ∈ rest, g = first
    · have hany : ¬ rest.any (· ≠ first) = true := by simpa using hall
      simp only [if_neg hany]
      rw [hvalid]
      exact (and_iff_right hall).symm
    · have hany : rest.any (· ≠ first) = true := by simpa using hall
      simp only [if_pos hany, reduceCtorEq, exists_false, false_iff]
      exact fun h => hall h.1

/-! ### The outcome -/

/-- The access mode and the filesystem, unless there is an error. -/
def outcome (parameters : Params) (capabilities : List (Option VolumeCapability)) : Option CanonicalVolumeCapability :=
  (validateVolumeCapabilities parameters capabilities).toOption

theorem outcome_eq_some {c : CanonicalVolumeCapability} : outcome parameters capabilities = some c ↔
    capabilities ≠ [] ∧ ((∀ c ∈ capabilities, Usable c) ∧ Settled [] (stated capabilities)) ∧
      resolveFilesystem parameters capabilities = .ok c.filesystem ∧ c.accessMode = supportedAccessMode.string := by
  constructor
  · intro h
    unfold outcome at h
    cases hv : validateVolumeCapabilities parameters capabilities with
    | error err => simp [hv, Except.toOption] at h
    | ok c' =>
      obtain rfl : c' = c := by simpa [hv, Except.toOption] using h
      obtain ⟨hne, hcheck, hrest⟩ := validateVolumeCapabilities_eq_ok hv
      exact ⟨hne, checkCapabilities_iff.1 hcheck, hrest⟩
  · rintro ⟨hne, hcheck, hresolve, hmode⟩
    obtain ⟨mode, filesystem⟩ := c
    subst hmode
    simp [outcome, validateVolumeCapabilities, hne, checkCapabilities_iff.2 hcheck, hresolve, bind, Except.bind, pure,
      Except.pure, Except.toOption]

/-- A request that is fine but for a filesystem of white space besides a named one. -/
structure Torn (parameters : Params) (capabilities : List (Option VolumeCapability)) : Prop where
  usable : ∀ c ∈ capabilities, Usable c
  blank : [] ∈ stated capabilities
  named : ∃ g ∈ named capabilities, (∀ f ∈ Csi.named capabilities, f = g) ∧ Supports parameters g

theorem mem_stated_congr (h : ∀ c, c ∈ capabilities' ↔ c ∈ capabilities) : f ∈ stated capabilities' ↔ f ∈ stated capabilities := by
  simp only [mem_stated, h]

variable [StdLib.LawfulCase]

theorem mem_named_congr (h : ∀ c, c ∈ capabilities' ↔ c ∈ capabilities) : f ∈ named capabilities' ↔ f ∈ named capabilities := by
  rw [mem_named, mem_named, mem_stated_congr h]

theorem Torn.congr (h : ∀ c, c ∈ capabilities' ↔ c ∈ capabilities) (htorn : Torn parameters capabilities') :
    Torn parameters capabilities := by
  obtain ⟨husable, hblank, g, hg, hall, hsupports⟩ := htorn
  refine ⟨fun c hc => husable c ((h c).2 hc), (mem_stated_congr h).1 hblank, g, (mem_named_congr h).1 hg, ?_, hsupports⟩
  exact fun f hf => hall f ((mem_named_congr h).2 hf)

/-- In a request that goes through and is not torn, all stated filesystems are the same. -/
theorem same_of_settled (htorn : ¬ Torn parameters capabilities) (husable : ∀ c ∈ capabilities, Usable c)
    (hsettled : Settled [] (stated capabilities)) (hresolve : resolveFilesystem parameters capabilities = .ok f) :
    ∃ g, ∀ f ∈ stated capabilities, f = g := by
  by_cases hany : ∃ g, g ∈ named capabilities
  · obtain ⟨g, hg⟩ := hany
    obtain ⟨hgs, hgne⟩ := mem_named.1 hg
    have hall : ∀ f ∈ named capabilities, f = g := fun f hf =>
      hsettled.unique f (mem_named.1 hf).1 (mem_named.1 hf).2 g hgs hgne
    have hnoblank : [] ∉ stated capabilities := fun hblank =>
      htorn ⟨husable, hblank, g, hg, hall, (resolveFilesystem_iff hg hall).1 ⟨f, hresolve⟩⟩
    refine ⟨g, fun f hf => hall f (mem_named.2 ⟨hf, ?_⟩)⟩
    rintro rfl
    exact hnoblank hf
  · refine ⟨[], fun f hf => ?_⟩
    by_contra hne
    exact hany ⟨f, mem_named.2 ⟨hf, hne⟩⟩

theorem resolveFilesystem_of_same (h : ∀ c, c ∈ capabilities' ↔ c ∈ capabilities) (hall : ∀ f ∈ named capabilities, f = g) :
    resolveFilesystem parameters capabilities' = resolveFilesystem parameters capabilities := by
  have hnil : named capabilities' = [] ↔ named capabilities = [] := by
    simp only [List.eq_nil_iff_forall_not_mem, mem_named_congr h]
  have hall' : ∀ f ∈ named capabilities', f = g := fun f hf => hall f ((mem_named_congr h).1 hf)
  simp only [resolveFilesystem, requestedFilesystem_of_same hall (.inl rfl), requestedFilesystem_of_same hall' (.inl rfl),
    hnil]

theorem outcome_of_same {c : CanonicalVolumeCapability} (h : ∀ c, c ∈ capabilities' ↔ c ∈ capabilities)
    (htorn : ¬ Torn parameters capabilities) (hc : outcome parameters capabilities = some c) :
    outcome parameters capabilities' = some c := by
  obtain ⟨hne, ⟨husable, hsettled⟩, hresolve, hmode⟩ := outcome_eq_some.1 hc
  obtain ⟨g, hall⟩ := same_of_settled htorn husable hsettled hresolve
  refine outcome_eq_some.2 ⟨?_, ⟨fun c hc => husable c ((h c).1 hc), ?_⟩, ?_, hmode⟩
  · obtain ⟨c, hc⟩ := List.exists_mem_of_ne_nil _ hne
    exact List.ne_nil_of_mem ((h c).2 hc)
  · exact settled_of_same (fun f hf => hall f ((mem_stated_congr h).1 hf)) (.inl rfl)
  · rw [resolveFilesystem_of_same h fun f hf => hall f (mem_named.1 hf).1]
    exact hresolve

theorem Torn.blank_first (htorn : Torn parameters capabilities) : ∃ capabilities' c,
    (∀ c, c ∈ capabilities' ↔ c ∈ capabilities) ∧ outcome parameters capabilities' = some c := by
  obtain ⟨husable, hblank, g, hg, hall, hsupports⟩ := htorn
  obtain ⟨f, hf⟩ := (resolveFilesystem_iff hg hall).2 hsupports
  let blankOf (c : Option VolumeCapability) : Bool := [] ∈ stated [c]
  have hsame : ∀ c, c ∈ capabilities.filter blankOf ++ capabilities.filter (fun c => !blankOf c) ↔ c ∈ capabilities :=
    fun c => (List.filter_append_perm blankOf capabilities).mem_iff
  have hfirst : ∀ a ∈ stated (capabilities.filter blankOf), a = [] := by
    intro a ha
    obtain ⟨c, hc, m, hm, -, rfl⟩ := mem_stated.1 ha
    obtain ⟨c', hc', m', hm', -, hnil⟩ := mem_stated.1 (of_decide_eq_true (List.mem_filter.1 hc).2)
    rw [List.mem_singleton.1 hc', hm] at hm'
    rw [Option.some.inj hm', hnil]
  have hrest : ∀ a ∈ stated (capabilities.filter fun c => !blankOf c), a = g := by
    intro a ha
    obtain ⟨c, hc, m, hm, hne, rfl⟩ := mem_stated.1 ha
    obtain ⟨hmem, hnot⟩ := List.mem_filter.1 hc
    refine hall _ (mem_named.2 ⟨mem_stated.2 ⟨c, hmem, m, hm, hne, rfl⟩, fun hnil => ?_⟩)
    have hblank : blankOf c = true := decide_eq_true (mem_stated.2 ⟨c, List.mem_singleton_self c, m, hm, hne, hnil⟩)
    simp [hblank] at hnot
  refine ⟨_, ⟨supportedAccessMode.string, f⟩, hsame, outcome_eq_some.2 ⟨?_, ⟨fun c hc => husable c ((hsame c).1 hc), ?_⟩, ?_, rfl⟩⟩
  · obtain ⟨c, hc, -⟩ := mem_stated.1 hblank
    exact List.ne_nil_of_mem ((hsame c).2 hc)
  · rw [stated, List.filterMap_append]
    exact (settled_append hfirst).2 (settled_of_same hrest (.inl rfl))
  · rw [resolveFilesystem_of_same hsame hall]
    exact hf

theorem Torn.blank_last (htorn : Torn parameters capabilities) : ∃ capabilities',
    (∀ c, c ∈ capabilities' ↔ c ∈ capabilities) ∧ outcome parameters capabilities' = none := by
  obtain ⟨-, hblank, g, hg, -, -⟩ := htorn
  obtain ⟨hgs, hgne⟩ := mem_named.1 hg
  obtain ⟨c1, hc1, m1, hm1, hne1, hnil⟩ := mem_stated.1 hblank
  obtain ⟨c2, hc2, m2, hm2, hne2, rfl⟩ := mem_stated.1 hgs
  refine ⟨c2 :: c1 :: capabilities, fun c => ?_, Option.eq_none_iff_forall_ne_some.2 fun c hc => ?_⟩
  · simp only [List.mem_cons]
    constructor
    · rintro (rfl | rfl | hc)
      · exact hc2
      · exact hc1
      · exact hc
    · exact fun hc => .inr (.inr hc)
  · obtain ⟨-, ⟨-, hsettled⟩, -⟩ := outcome_eq_some.1 hc
    have hstated : stated (c2 :: c1 :: capabilities) = normalizeFilesystem m2.fsType :: [] :: stated capabilities := by
      simp [stated, hm1, hm2, hne1, hne2, hnil]
    rw [hstated] at hsettled
    exact hgne (hsettled.2.1 hgne).symm

/-- **Order and repetition do not matter**, unless the request is torn. -/
theorem validation_unordered (parameters : Params) (capabilities : List (Option VolumeCapability)) :
    (∀ capabilities', (∀ c, c ∈ capabilities' ↔ c ∈ capabilities) →
      outcome parameters capabilities' = outcome parameters capabilities) ↔ ¬ Torn parameters capabilities := by
  constructor
  · intro hsame htorn
    obtain ⟨first, c, hfirst, hok⟩ := htorn.blank_first
    obtain ⟨last, hlast, hnone⟩ := htorn.blank_last
    have hboth := (hsame first hfirst).trans (hsame last hlast).symm
    rw [hok, hnone] at hboth
    cases hboth
  · intro htorn capabilities' h
    refine Option.ext fun c => ⟨fun hc => ?_, outcome_of_same h htorn⟩
    exact outcome_of_same (fun c => (h c).symm) (fun htorn' => htorn (htorn'.congr h)) hc

end order

section

attribute [local instance] asciiLib

theorem validation_unordered_named : (∀ capabilities', (∀ c, c ∈ capabilities' ↔ c ∈ mounted "xfs" ++ mounted "") →
    outcome [] capabilities' = outcome [] (mounted "xfs" ++ mounted "")) ∧
    outcome [] (mounted "xfs" ++ mounted "") = some ⟨"SINGLE_NODE_WRITER", "xfs"⟩ :=
  ⟨(validation_unordered [] (mounted "xfs" ++ mounted "")).2 fun h => absurd h.blank (by decide), by decide⟩

/-- **A filesystem of white space is skipped in front, and a conflict behind.** -/
theorem order_matters : outcome [] (mounted " " ++ mounted "ext4") = some ⟨"SINGLE_NODE_WRITER", "ext4"⟩ ∧
    outcome [] (mounted "ext4" ++ mounted " ") = none := by
  decide

end

end Distort.Csi
