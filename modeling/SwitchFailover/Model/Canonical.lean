import SwitchFailover.Model.Topology

/-!
# Canonical topology

What a build makes of its declarations depends on them as sets: on neither their order nor
their repetitions, and on neither for the hops and links inside a path.  This rests on one
fact about the tables that are sorted and then entered one by one: as long as digests tell
the entries apart, such a table exists exactly if all declarations pass their checks and no
two of them differ under one identity, and it is then the only strictly sorted list of them.
-/

namespace SwitchFailover.Model

open SwitchFailover.Core Library.Ordering

variable {path other : PathDescriptor} {snapshot : TopologySnapshot}

/-! ## One table -/

section AdmitSorted

variable {Declared Name : Type} [LinearOrder Name] {name : Declared → Name}
  {kept kept' : List Declared} {declared : Declared}

/-- The table of what came of the checks: all of them passed, and it has their entries in
the order of their identities, each once. -/
structure Tabulates (name : Declared → Name) (results : List (Result Declared))
    (table : List Declared) : Prop where
  passed : ∀ result ∈ results, ∃ entry, result = .ok entry
  sorted : table.Pairwise fun left right => name left < name right
  entered : ∀ entry, entry ∈ table ↔ .ok entry ∈ results

theorem Tabulates.congr {results results' : List (Result Declared)} {table : List Declared}
    (hsame : ∀ result, result ∈ results ↔ result ∈ results') :
    Tabulates name results table ↔ Tabulates name results' table := by
  constructor
  · rintro ⟨hpassed, hsorted, hentered⟩
    exact ⟨fun result hresult => hpassed result ((hsame result).mpr hresult), hsorted,
      fun entry => (hentered entry).trans (hsame _)⟩
  · rintro ⟨hpassed, hsorted, hentered⟩
    exact ⟨fun result hresult => hpassed result ((hsame result).mp hresult), hsorted,
      fun entry => (hentered entry).trans (hsame _).symm⟩

/-- The digest tells apart the entries that pass. -/
def TellsApart (digest : Declared → UInt64) (results : List (Result Declared)) : Prop :=
  ∀ left right, .ok left ∈ results → .ok right ∈ results → digest left = digest right →
    left = right

variable {digest : Declared → UInt64} {conflict : Declared → Bytes}
  {check : Declared → Result Declared}

theorem mem_of_admitNext (hnext : admitNext name digest conflict kept declared = .ok kept')
    {entry : Declared} (hentry : entry ∈ kept') : entry ∈ kept ∨ entry = declared := by
  rcases admitNext_eq_ok.mp hnext with ⟨-, rfl⟩ | ⟨-, rfl⟩
  · exact Or.inl hentry
  · exact (List.mem_cons.mp hentry).symm

theorem admitNext_mem (htold : ∀ entry ∈ kept, digest entry = digest declared → entry = declared)
    (hnext : admitNext name digest conflict kept declared = .ok kept') (entry : Declared) :
    entry ∈ kept' ↔ entry ∈ kept ∨ entry = declared := by
  refine ⟨mem_of_admitNext hnext, ?_⟩
  rcases admitNext_eq_ok.mp hnext with ⟨⟨last, hlast, -, hdigest⟩, rfl⟩ | ⟨-, rfl⟩
  · have hmem : last ∈ kept' := List.mem_of_mem_head? hlast
    rintro (hkept | rfl)
    · exact hkept
    · exact htold last hmem hdigest ▸ hmem
  · exact fun hentry => List.mem_cons.mpr hentry.symm

/-- An entry that was kept or is still to come was so one declaration earlier. -/
theorem known_cons {next : List Declared} {results : List (Result Declared)}
    (hmem : ∀ entry ∈ next, entry ∈ kept ∨ entry = declared) {entry : Declared}
    (hentry : entry ∈ next ∨ .ok entry ∈ results) :
    entry ∈ kept ∨ .ok entry ∈ (.ok declared :: results : List (Result Declared)) := by
  rcases hentry with hentry | hentry
  · rcases hmem entry hentry with hkept | rfl
    · exact Or.inl hkept
    · exact Or.inr List.mem_cons_self
  · exact Or.inr (List.mem_cons_of_mem _ hentry)

theorem admitAll_spec {rest : List Declared}
    (htold : ∀ left right, (left ∈ kept ∨ .ok left ∈ rest.map check) →
      .ok right ∈ rest.map check → digest left = digest right → left = right)
    (hrun : admitAll name digest conflict check kept rest = .ok kept') :
    (∀ result ∈ rest.map check, ∃ entry, result = .ok entry) ∧
      ∀ entry, entry ∈ kept' ↔ entry ∈ kept ∨ .ok entry ∈ rest.map check := by
  induction rest generalizing kept with
  | nil =>
    cases hrun
    refine ⟨fun result hresult => absurd hresult List.not_mem_nil, fun entry => ?_⟩
    rw [List.map_nil, or_iff_left List.not_mem_nil]
  | cons declared rest ih =>
    rw [admitAll, result_bind_eq_ok] at hrun
    obtain ⟨checked, hchecked, hrun⟩ := hrun
    rw [result_bind_eq_ok] at hrun
    obtain ⟨next, hnext, hrun⟩ := hrun
    rw [List.map_cons, hchecked] at htold ⊢
    have hmem := admitNext_mem (fun entry hentry hdigest =>
      htold entry checked (Or.inl hentry) List.mem_cons_self hdigest) hnext
    obtain ⟨hpassed, hentered⟩ := ih (fun left right hleft hright =>
      htold left right (known_cons (fun entry => (hmem entry).mp) hleft)
        (List.mem_cons_of_mem _ hright)) hrun
    constructor
    · intro result hresult
      rcases List.mem_cons.mp hresult with rfl | hlater
      · exact ⟨checked, rfl⟩
      · exact hpassed result hlater
    · intro entry
      rw [hentered entry, hmem entry, List.mem_cons, or_assoc, Except.ok.injEq]

theorem admitNext_of_distinct
    (hdistinct : ∀ entry ∈ kept, name entry = name declared → entry = declared) :
    ∃ next, admitNext name digest conflict kept declared = .ok next := by
  by_cases hrepeated : ∃ last ∈ kept.head?, name last = name declared
  · obtain ⟨last, hlast, hsame⟩ := hrepeated
    have hequal := hdistinct last (List.mem_of_mem_head? hlast) hsame
    exact ⟨kept, admitNext_eq_ok.mpr (Or.inl ⟨⟨last, hlast, hsame, congrArg digest hequal⟩, rfl⟩)⟩
  · refine ⟨declared :: kept, admitNext_eq_ok.mpr (Or.inr ⟨fun last hlast hsame => ?_, rfl⟩)⟩
    exact hrepeated ⟨last, hlast, hsame⟩

/-- Entries whose identities are distinct are all admitted. -/
theorem admitAll_of_passed {rest : List Declared}
    (hpassed : ∀ result ∈ rest.map check, ∃ entry, result = .ok entry)
    (hdistinct : ∀ left right, (left ∈ kept ∨ .ok left ∈ rest.map check) →
      .ok right ∈ rest.map check → name left = name right → left = right) :
    ∃ kept', admitAll name digest conflict check kept rest = .ok kept' := by
  induction rest generalizing kept with
  | nil => exact ⟨kept, rfl⟩
  | cons declared rest ih =>
    obtain ⟨checked, hchecked⟩ := hpassed _ List.mem_cons_self
    rw [List.map_cons, hchecked] at hdistinct
    obtain ⟨next, hnext⟩ : ∃ next, admitNext name digest conflict kept checked = .ok next :=
      admitNext_of_distinct fun entry hentry =>
        hdistinct entry checked (Or.inl hentry) List.mem_cons_self
    obtain ⟨kept', hrun⟩ := ih
      (fun result hresult => hpassed result (List.mem_cons_of_mem _ hresult))
      (fun left right hleft hright => hdistinct left right
        (known_cons (fun entry => mem_of_admitNext hnext) hleft)
        (List.mem_cons_of_mem _ hright))
    refine ⟨kept', ?_⟩
    rw [admitAll, result_bind_eq_ok]
    exact ⟨checked, hchecked, result_bind_eq_ok.mpr ⟨next, hnext, hrun⟩⟩

theorem mem_map_insertionSort (declarations : List Declared) (result : Result Declared) :
    result ∈ (declarations.insertionSort fun left right => name left ≤ name right).map check ↔
      result ∈ declarations.map check :=
  ((List.perm_insertionSort _ declarations).map check).mem_iff

/-- Declarations are admitted as a table exactly if they have one. -/
theorem admitSorted_eq_ok
    (hcheck : ∀ declared checked, check declared = .ok checked → name checked = name declared)
    {declarations table : List Declared} (htold : TellsApart digest (declarations.map check)) :
    admitSorted name digest conflict check declarations = .ok table ↔
      Tabulates name (declarations.map check) table := by
  have hspec : ∀ kept, admitAll name digest conflict check []
      (declarations.insertionSort fun left right => name left ≤ name right) = .ok kept →
      (∀ result ∈ declarations.map check, ∃ entry, result = .ok entry) ∧
        ∀ entry, entry ∈ kept ↔ .ok entry ∈ declarations.map check := by
    intro kept hkept
    obtain ⟨hpassed, hentered⟩ := admitAll_spec (fun left right hleft hright =>
      htold left right ((mem_map_insertionSort _ _).mp (hleft.resolve_left List.not_mem_nil))
        ((mem_map_insertionSort _ _).mp hright)) hkept
    refine ⟨fun result hresult => hpassed result ((mem_map_insertionSort _ _).mpr hresult), ?_⟩
    intro entry
    rw [hentered entry, or_iff_right List.not_mem_nil, mem_map_insertionSort]
  have hof : ∀ {table}, admitSorted name digest conflict check declarations = .ok table →
      Tabulates name (declarations.map check) table := by
    intro table htable
    have hsorted := admitSorted_sorted hcheck htable
    rw [admitSorted, result_bind_eq_ok] at htable
    obtain ⟨kept, hkept, htable⟩ := htable
    cases htable
    obtain ⟨hpassed, hentered⟩ := hspec kept hkept
    exact ⟨hpassed, hsorted, fun entry => List.mem_reverse.trans (hentered entry)⟩
  refine ⟨hof, ?_⟩
  rintro ⟨hpassed, hsorted, hentered⟩
  -- in a strictly sorted table no identity occurs twice
  have hnodup : (table.map name).Nodup := List.pairwise_map.mpr (hsorted.imp ne_of_lt)
  have hdistinct : ∀ left right, .ok left ∈ declarations.map check →
      .ok right ∈ declarations.map check → name left = name right → left = right :=
    fun left right hleft hright hsame => List.inj_on_of_nodup_map hnodup
      ((hentered left).mpr hleft) ((hentered right).mpr hright) hsame
  obtain ⟨kept, hkept⟩ : ∃ kept, admitAll name digest conflict check []
      (declarations.insertionSort fun left right => name left ≤ name right) = .ok kept :=
    admitAll_of_passed
      (fun result hresult => hpassed result ((mem_map_insertionSort _ _).mp hresult))
      (fun left right hleft hright => hdistinct left right
        ((mem_map_insertionSort _ _).mp (hleft.resolve_left List.not_mem_nil))
        ((mem_map_insertionSort _ _).mp hright))
  have hadmitted : admitSorted name digest conflict check declarations = .ok kept.reverse := by
    rw [admitSorted, result_bind_eq_ok]
    exact ⟨kept, hkept, rfl⟩
  have hreversed := hof hadmitted
  rw [hadmitted, eq_of_pairwise_lt name hreversed.sorted hsorted fun entry =>
    (hreversed.entered entry).trans (hentered entry).symm]

end AdmitSorted

/-! ## What a build makes of its declarations -/

namespace PathDescriptor

/-- The path as a table has it. -/
def canonical (path : PathDescriptor) : PathDescriptor :=
  { path with hops := sortUnique path.hops, links := sortUnique path.links }

/-- The same path with its hops and links in another order. -/
structure Rearranged (path other : PathDescriptor) : Prop where
  fields : other = { path with hops := other.hops, links := other.links }
  hops : path.hops.Perm other.hops
  links : path.links.Perm other.links

theorem Rearranged.refl (path : PathDescriptor) : path.Rearranged path :=
  ⟨rfl, List.Perm.refl _, List.Perm.refl _⟩

theorem Rearranged.symm (h : path.Rearranged other) :
    other.Rearranged path where
  fields := by rw [h.fields]
  hops := h.hops.symm
  links := h.links.symm

theorem Rearranged.canonical_eq (h : path.Rearranged other) : path.canonical = other.canonical := by
  have hhops : sortUnique path.hops = sortUnique other.hops :=
    sortUnique_congr fun hop => h.hops.mem_iff
  have hlinks : sortUnique path.links = sortUnique other.links :=
    sortUnique_congr fun link => h.links.mem_iff
  rw [canonical, canonical, hhops, hlinks, h.fields]

theorem Rearranged.validate_eq (h : path.Rearranged other) : path.validate = other.validate := by
  have hempty : path.hops.isEmpty = other.hops.isEmpty := by
    rw [Bool.eq_iff_iff, List.isEmpty_iff_length_eq_zero, List.isEmpty_iff_length_eq_zero,
      h.hops.length_eq]
  have hvalid : path.hops.all SwitchKey.valid = other.hops.all SwitchKey.valid :=
    h.hops.all_eq
  have hid : other.id = path.id := by rw [h.fields]
  have hmask : other.requiredCapabilities = path.requiredCapabilities := by rw [h.fields]
  rw [validate, validate, hempty, hvalid, hid, hmask]

end PathDescriptor

namespace TopologySnapshot

theorem checkPath_eq_ok {switches : List SwitchDescriptor} {links : List LinkDescriptor}
    {checked : PathDescriptor} (hcheck : checkPath switches links path = .ok checked) :
    checked = path.canonical := by
  simp only [checkPath, result_bind_eq_ok] at hcheck
  obtain ⟨_, _, _, _, _, _, hcheck⟩ := hcheck
  cases hcheck
  rfl

/-- The lookups are about the path as a table has it. -/
theorem checkPath_eq (switches : List SwitchDescriptor) (links : List LinkDescriptor)
    (path : PathDescriptor) :
    checkPath switches links path = (do
      path.validate
      require (path.canonical.hops.all fun hop => switches.any (·.key == hop)) .invalid
        (text "path references a switch generation the snapshot does not contain")
      require (path.canonical.links.all fun link => links.any (·.id == link)) .invalid
        (text "path references a link the snapshot does not contain")
      pure path.canonical) := rfl

theorem checkPath_rearranged (h : path.Rearranged other) (switches : List SwitchDescriptor)
    (links : List LinkDescriptor) :
    checkPath switches links path = checkPath switches links other := by
  rw [checkPath_eq, checkPath_eq, h.validate_eq, h.canonical_eq]

/-- The node table of a snapshot. -/
def nodesOf (switches : List SwitchDescriptor) (links : List LinkDescriptor)
    (paths : List PathDescriptor) (edges : List DependencyEdge) : List ClosureNode :=
  sortUnique ((switches.map fun descriptor => .ofSwitch descriptor.key) ++
    (paths.map fun path => .ofDependent (.path path.id)) ++
    (links.map fun link => .ofDependent (.link link.id)) ++
    edges.flatMap fun edge => [edge.source, edge.target])

theorem ext_fields {left right : TopologySnapshot} (hversion : left.version = right.version)
    (hswitches : left.switches = right.switches) (hlinks : left.links = right.links)
    (hpaths : left.paths = right.paths) (hedges : left.edges = right.edges)
    (hnodes : left.nodes = right.nodes) (hlimits : left.limits = right.limits)
    (hdigest : left.digest = right.digest) : left = right := by
  cases left
  cases right
  cases hversion
  cases hswitches
  cases hlinks
  cases hpaths
  cases hedges
  cases hnodes
  cases hlimits
  cases hdigest
  rfl

/-- What there is to say about a snapshot that was built. -/
structure Built (version : TopologyVersion) (switches : List SwitchDescriptor)
    (links : List LinkDescriptor) (paths : List PathDescriptor)
    (explicitEdges : List DependencyEdge) (limits : Limits) (snapshot : TopologySnapshot) :
    Prop where
  bounds : limits.validate = .ok ()
  versioned : version.valid = true
  switchCount : switches.length ≤ limits.maxSwitches
  linkCount : links.length ≤ limits.maxLinks
  pathCount : paths.length ≤ limits.maxPaths
  edgeCount : explicitEdges.length ≤ limits.maxClosureEdges
  switches : Tabulates SwitchDescriptor.key (switches.map checkSwitch) snapshot.switches
  links : Tabulates LinkDescriptor.id (links.map (checkLink snapshot.switches)) snapshot.links
  paths : Tabulates PathDescriptor.id (paths.map (checkPath snapshot.switches snapshot.links))
    snapshot.paths
  qualified : ∀ edge ∈ explicitEdges, (edge.source.valid && edge.target.valid) = true
  edges : snapshot.edges = sortUnique (derivedEdges snapshot.links snapshot.paths ++ explicitEdges)
  nodes : snapshot.nodes =
    nodesOf snapshot.switches snapshot.links snapshot.paths snapshot.edges
  nodeCount : snapshot.nodes.length ≤ limits.maxClosureNodes
  versionKept : snapshot.version = version
  limitsKept : snapshot.limits = limits
  digest : snapshot.digest =
    digestOf version snapshot.switches snapshot.links snapshot.paths snapshot.edges

/-- Digests tell apart the declared switches and links, and the paths as a table has them. -/
structure Distinguished (switches : List SwitchDescriptor) (links : List LinkDescriptor)
    (paths : List PathDescriptor) : Prop where
  switches : ∀ left ∈ switches, ∀ right ∈ switches, left.digest = right.digest → left = right
  links : ∀ left ∈ links, ∀ right ∈ links, left.digest = right.digest → left = right
  paths : ∀ left ∈ paths, ∀ right ∈ paths,
    left.canonical.digest = right.canonical.digest → left.canonical = right.canonical

section Build

variable {version : TopologyVersion} {switches : List SwitchDescriptor}
  {links : List LinkDescriptor} {paths : List PathDescriptor}
  {explicitEdges : List DependencyEdge} {limits : Limits}

theorem checkSwitch_eq_ok {descriptor checked : SwitchDescriptor}
    (hcheck : checkSwitch descriptor = .ok checked) : checked = descriptor := by
  rw [checkSwitch, result_bind_eq_ok] at hcheck
  obtain ⟨_, _, hcheck⟩ := hcheck
  cases hcheck
  rfl

theorem checkLink_eq_ok {table : List SwitchDescriptor} {link checked : LinkDescriptor}
    (hcheck : checkLink table link = .ok checked) : checked = link := by
  simp only [checkLink, result_bind_eq_ok] at hcheck
  obtain ⟨_, _, _, _, hcheck⟩ := hcheck
  cases hcheck
  rfl

theorem Distinguished.tellsApart_switches (hdistinct : Distinguished switches links paths) :
    TellsApart SwitchDescriptor.digest (switches.map checkSwitch) := by
  intro left right hleft hright hdigest
  obtain ⟨one, hone, hleft⟩ := List.mem_map.mp hleft
  obtain ⟨other, hother, hright⟩ := List.mem_map.mp hright
  rw [checkSwitch_eq_ok hleft, checkSwitch_eq_ok hright] at hdigest ⊢
  exact hdistinct.switches one hone other hother hdigest

theorem Distinguished.tellsApart_links (hdistinct : Distinguished switches links paths)
    (table : List SwitchDescriptor) :
    TellsApart LinkDescriptor.digest (links.map (checkLink table)) := by
  intro left right hleft hright hdigest
  obtain ⟨one, hone, hleft⟩ := List.mem_map.mp hleft
  obtain ⟨other, hother, hright⟩ := List.mem_map.mp hright
  rw [checkLink_eq_ok hleft, checkLink_eq_ok hright] at hdigest ⊢
  exact hdistinct.links one hone other hother hdigest

theorem Distinguished.tellsApart_paths (hdistinct : Distinguished switches links paths)
    (table : List SwitchDescriptor) (entered : List LinkDescriptor) :
    TellsApart PathDescriptor.digest (paths.map (checkPath table entered)) := by
  intro left right hleft hright hdigest
  obtain ⟨one, hone, hleft⟩ := List.mem_map.mp hleft
  obtain ⟨other, hother, hright⟩ := List.mem_map.mp hright
  rw [checkPath_eq_ok hleft, checkPath_eq_ok hright] at hdigest ⊢
  exact hdistinct.paths one hone other hother hdigest

/-- A build succeeds exactly with the snapshot that its declarations describe. -/
theorem build_eq_ok (hdistinct : Distinguished switches links paths) :
    build version switches links paths explicitEdges limits = .ok snapshot ↔
      Built version switches links paths explicitEdges limits snapshot := by
  simp only [build, result_bind_eq_ok]
  constructor
  · rintro ⟨_, hbounds, _, hversion, _, hswitchCount, _, hlinkCount, _, hpathCount, _, hedgeCount,
      ⟨switchTable, hswitches⟩, -, ⟨linkTable, hlinks⟩, -, ⟨pathTable, hpaths⟩, -, _, hqualified,
      _, hnodeCount, hsnapshot⟩
    cases hsnapshot
    exact
      { bounds := hbounds
        versioned := (require_eq_ok _ _ _ _).mp hversion
        switchCount := (requireWithin_eq_ok _ _ _ _).mp hswitchCount
        linkCount := (requireWithin_eq_ok _ _ _ _).mp hlinkCount
        pathCount := (requireWithin_eq_ok _ _ _ _).mp hpathCount
        edgeCount := (requireWithin_eq_ok _ _ _ _).mp hedgeCount
        switches := (admitSorted_eq_ok (fun _ _ => checkSwitch_key)
          hdistinct.tellsApart_switches).mp hswitches
        links := (admitSorted_eq_ok (fun _ _ => checkLink_id)
          (hdistinct.tellsApart_links _)).mp hlinks
        paths := (admitSorted_eq_ok (fun _ _ => checkPath_id)
          (hdistinct.tellsApart_paths _ _)).mp hpaths
        qualified := List.all_eq_true.mp ((require_eq_ok _ _ _ _).mp hqualified)
        edges := rfl
        nodes := rfl
        nodeCount := (requireWithin_eq_ok _ _ _ _).mp hnodeCount
        versionKept := rfl
        limitsKept := rfl
        digest := rfl }
  · intro hbuilt
    have hswitches : admitSorted SwitchDescriptor.key SwitchDescriptor.digest
        (fun descriptor => text "contradictory declarations for the same switch generation: " ++
          descriptor.key.toText) checkSwitch switches = .ok snapshot.switches :=
      (admitSorted_eq_ok (fun _ _ => checkSwitch_key) hdistinct.tellsApart_switches).mpr
        hbuilt.switches
    have hlinks : admitSorted LinkDescriptor.id LinkDescriptor.digest
        (fun _ => text "contradictory declarations for the same link identity")
        (checkLink snapshot.switches) links = .ok snapshot.links :=
      (admitSorted_eq_ok (fun _ _ => checkLink_id) (hdistinct.tellsApart_links _)).mpr hbuilt.links
    have hpaths : admitSorted PathDescriptor.id PathDescriptor.digest
        (fun _ => text "contradictory declarations for the same path identity")
        (checkPath snapshot.switches snapshot.links) paths = .ok snapshot.paths :=
      (admitSorted_eq_ok (fun _ _ => checkPath_id) (hdistinct.tellsApart_paths _ _)).mpr
        hbuilt.paths
    have hedges := hbuilt.edges
    have hnodes := hbuilt.nodes
    have hnodeCount := hbuilt.nodeCount
    rw [hnodes, hedges, nodesOf] at hnodeCount
    refine ⟨(), hbuilt.bounds, (), (require_eq_ok _ _ _ _).mpr hbuilt.versioned,
      (), (requireWithin_eq_ok _ _ _ _).mpr hbuilt.switchCount,
      (), (requireWithin_eq_ok _ _ _ _).mpr hbuilt.linkCount,
      (), (requireWithin_eq_ok _ _ _ _).mpr hbuilt.pathCount,
      (), (requireWithin_eq_ok _ _ _ _).mpr hbuilt.edgeCount,
      ⟨_, hswitches⟩, attach_of_eq_ok hswitches, ⟨_, hlinks⟩, attach_of_eq_ok hlinks,
      ⟨_, hpaths⟩, attach_of_eq_ok hpaths,
      (), (require_eq_ok _ _ _ _).mpr (List.all_eq_true.mpr hbuilt.qualified),
      (), (requireWithin_eq_ok _ _ _ _).mpr hnodeCount, ?_⟩
    rw [hedges] at hnodes
    have hdigest := hbuilt.digest
    rw [hedges] at hdigest
    exact congrArg Except.ok (ext_fields hbuilt.versionKept.symm rfl rfl rfl hedges.symm
      hnodes.symm hbuilt.limitsKept.symm hdigest.symm)

end Build

/-! ## Declarations as sets -/

/-- The tables of a snapshot. -/
structure Tables where
  switches : List SwitchDescriptor
  links : List LinkDescriptor
  paths : List PathDescriptor
  edges : List DependencyEdge
  nodes : List ClosureNode
  /-- The direct dependents of each node. -/
  reverseAdjacency : List (List ClosureNode)
  digest : UInt64

def tables (snapshot : TopologySnapshot) : Tables where
  switches := snapshot.switches
  links := snapshot.links
  paths := snapshot.paths
  edges := snapshot.edges
  nodes := snapshot.nodes
  reverseAdjacency := snapshot.nodes.map snapshot.directDependents
  digest := snapshot.digest

/-- The lists declare the same things, up to a relation, and a bound admits both or neither. -/
structure Interchangeable {A : Type} (same : A → A → Prop) (limit : ℕ) (left right : List A) :
    Prop where
  forth : ∀ one ∈ left, ∃ other ∈ right, same one other
  back : ∀ other ∈ right, ∃ one ∈ left, same one other
  count : left.length ≤ limit ↔ right.length ≤ limit

namespace Interchangeable

variable {A B : Type} {same : A → A → Prop} {limit : ℕ} {left right : List A}

theorem flip (hsame : Interchangeable same limit left right)
    (hsymm : ∀ {one other}, same one other → same other one) :
    Interchangeable same limit right left where
  forth other hother := by
    obtain ⟨one, hone, hrelated⟩ := hsame.back other hother
    exact ⟨one, hone, hsymm hrelated⟩
  back one hone := by
    obtain ⟨other, hother, hrelated⟩ := hsame.forth one hone
    exact ⟨other, hother, hsymm hrelated⟩
  count := hsame.count.symm

theorem mem_map {check : A → B} (hsame : Interchangeable same limit left right)
    (hcheck : ∀ {one other}, same one other → check one = check other) (result : B) :
    result ∈ left.map check ↔ result ∈ right.map check := by
  constructor
  · intro hresult
    obtain ⟨one, hone, rfl⟩ := List.mem_map.mp hresult
    obtain ⟨other, hother, hrelated⟩ := hsame.forth one hone
    exact List.mem_map.mpr ⟨other, hother, (hcheck hrelated).symm⟩
  · intro hresult
    obtain ⟨other, hother, rfl⟩ := List.mem_map.mp hresult
    obtain ⟨one, hone, hrelated⟩ := hsame.back other hother
    exact List.mem_map.mpr ⟨one, hone, hcheck hrelated⟩

theorem mem_iff (hsame : Interchangeable Eq limit left right) (value : A) :
    value ∈ left ↔ value ∈ right := by
  have hmapped : value ∈ left.map id ↔ value ∈ right.map id := hsame.mem_map (congrArg id) value
  rwa [List.map_id, List.map_id] at hmapped

theorem of_mem_iff (hmem : ∀ value, value ∈ left ↔ value ∈ right)
    (hcount : left.length ≤ limit ↔ right.length ≤ limit)
    (hrefl : ∀ value, same value value) : Interchangeable same limit left right where
  forth one hone := ⟨one, (hmem one).mp hone, hrefl one⟩
  back other hother := ⟨other, (hmem other).mpr hother, hrefl other⟩
  count := hcount

theorem of_perm (hperm : left.Perm right) : Interchangeable Eq limit left right :=
  of_mem_iff (fun _ => hperm.mem_iff) (by rw [hperm.length_eq]) fun _ => rfl

end Interchangeable

/-- Repetitions of what is there already were added, within the limit. -/
structure Repeated {A : Type} (limit : ℕ) (once repeated : List A) : Prop where
  kept : once.Subperm repeated
  nothingNew : repeated ⊆ once
  within : repeated.length ≤ limit

theorem Repeated.interchangeable {A : Type} {limit : ℕ} {once repeated : List A}
    {same : A → A → Prop} (hrepeated : Repeated limit once repeated)
    (hrefl : ∀ value, same value value) : Interchangeable same limit once repeated :=
  Interchangeable.of_mem_iff
    (fun _ => ⟨fun honce => hrepeated.kept.subset honce, fun hagain => hrepeated.nothingNew hagain⟩)
    (iff_of_true (hrepeated.kept.length_le.trans hrepeated.within) hrepeated.within) hrefl

/-- The paths in another order, and each with its hops and links in another order. -/
def Reordered (paths paths' : List PathDescriptor) : Prop :=
  ∃ middle, paths.Perm middle ∧ List.Forall₂ PathDescriptor.Rearranged middle paths'

theorem Reordered.interchangeable {limit : ℕ} {paths paths' : List PathDescriptor}
    (hreordered : Reordered paths paths') :
    Interchangeable PathDescriptor.Rearranged limit paths paths' := by
  obtain ⟨middle, hperm, hrearranged⟩ := hreordered
  refine ⟨fun path hpath => ?_, fun other hother => ?_, ?_⟩
  · obtain ⟨index, hindex, rfl⟩ := List.getElem_of_mem (hperm.mem_iff.mp hpath)
    have hindex' := hrearranged.length_eq ▸ hindex
    exact ⟨_, List.getElem_mem hindex', hrearranged.get hindex hindex'⟩
  · obtain ⟨index, hindex', rfl⟩ := List.getElem_of_mem hother
    have hindex := hrearranged.length_eq.symm ▸ hindex'
    exact ⟨_, hperm.mem_iff.mpr (List.getElem_mem hindex), hrearranged.get hindex hindex'⟩
  · rw [hperm.length_eq, hrearranged.length_eq]

/-- The same declarations, under the same limits. -/
structure SameDeclarations (limits : Limits) (switches switches' : List SwitchDescriptor)
    (links links' : List LinkDescriptor) (paths paths' : List PathDescriptor)
    (edges edges' : List DependencyEdge) : Prop where
  switches : Interchangeable Eq limits.maxSwitches switches switches'
  links : Interchangeable Eq limits.maxLinks links links'
  paths : Interchangeable PathDescriptor.Rearranged limits.maxPaths paths paths'
  edges : Interchangeable Eq limits.maxClosureEdges edges edges'

section Same

variable {version : TopologyVersion} {switches switches' : List SwitchDescriptor}
  {links links' : List LinkDescriptor} {paths paths' : List PathDescriptor}
  {edges edges' : List DependencyEdge} {limits : Limits}
  (hsame : SameDeclarations limits switches switches' links links' paths paths' edges edges')

include hsame

theorem SameDeclarations.flip :
    SameDeclarations limits switches' switches links' links paths' paths edges' edges where
  switches := hsame.switches.flip Eq.symm
  links := hsame.links.flip Eq.symm
  paths := hsame.paths.flip PathDescriptor.Rearranged.symm
  edges := hsame.edges.flip Eq.symm

theorem SameDeclarations.distinguished (hdistinct : Distinguished switches links paths) :
    Distinguished switches' links' paths' where
  switches left hleft right hright :=
    hdistinct.switches left ((hsame.switches.mem_iff left).mpr hleft)
      right ((hsame.switches.mem_iff right).mpr hright)
  links left hleft right hright := hdistinct.links left ((hsame.links.mem_iff left).mpr hleft)
    right ((hsame.links.mem_iff right).mpr hright)
  paths left hleft right hright hdigest := by
    obtain ⟨one, hone, hleft⟩ := hsame.paths.back left hleft
    obtain ⟨other, hother, hright⟩ := hsame.paths.back right hright
    rw [← hleft.canonical_eq, ← hright.canonical_eq] at hdigest ⊢
    exact hdistinct.paths one hone other hother hdigest

theorem SameDeclarations.built (hbuilt : Built version switches links paths edges limits snapshot) :
    Built version switches' links' paths' edges' limits snapshot where
  bounds := hbuilt.bounds
  versioned := hbuilt.versioned
  switchCount := hsame.switches.count.mp hbuilt.switchCount
  linkCount := hsame.links.count.mp hbuilt.linkCount
  pathCount := hsame.paths.count.mp hbuilt.pathCount
  edgeCount := hsame.edges.count.mp hbuilt.edgeCount
  switches := (Tabulates.congr (hsame.switches.mem_map (congrArg _))).mp hbuilt.switches
  links := (Tabulates.congr (hsame.links.mem_map (congrArg _))).mp hbuilt.links
  paths := (Tabulates.congr (hsame.paths.mem_map fun hrearranged =>
    checkPath_rearranged hrearranged _ _)).mp hbuilt.paths
  qualified edge hedge := hbuilt.qualified edge ((hsame.edges.mem_iff edge).mpr hedge)
  edges := by
    rw [hbuilt.edges]
    apply sortUnique_congr
    intro edge
    rw [List.mem_append, List.mem_append, hsame.edges.mem_iff]
  nodes := hbuilt.nodes
  nodeCount := hbuilt.nodeCount
  versionKept := hbuilt.versionKept
  limitsKept := hbuilt.limitsKept
  digest := hbuilt.digest

theorem SameDeclarations.toOption_build (hdistinct : Distinguished switches links paths) :
    (build version switches links paths edges limits).toOption =
      (build version switches' links' paths' edges' limits).toOption := by
  have hdistinct' := hsame.distinguished hdistinct
  cases hleft : build version switches links paths edges limits with
  | ok snapshot =>
    rw [(build_eq_ok hdistinct').mpr (hsame.built ((build_eq_ok hdistinct).mp hleft))]
  | error status =>
    cases hright : build version switches' links' paths' edges' limits with
    | error status' => rfl
    | ok snapshot =>
      have hbuilt := hsame.flip.built ((build_eq_ok hdistinct').mp hright)
      cases hleft.symm.trans ((build_eq_ok hdistinct).mpr hbuilt)

end Same

/-! ## Canonical builds -/

/-- Declarations in another order, and paths with their hops and links in another order,
give the same tables or none as well; so do declarations that are repeated. -/
theorem build_canonical {switches : List SwitchDescriptor} {links : List LinkDescriptor}
    {paths : List PathDescriptor} (hdistinct : Distinguished switches links paths)
    (version : TopologyVersion) (edges : List DependencyEdge) (limits : Limits) :
    (∀ switches' links' paths' edges', switches.Perm switches' → links.Perm links' →
        Reordered paths paths' → edges.Perm edges' →
        (build version switches' links' paths' edges' limits).toOption.map tables =
          (build version switches links paths edges limits).toOption.map tables) ∧
      ∀ switches' links' paths' edges', Repeated limits.maxSwitches switches switches' →
        Repeated limits.maxLinks links links' → Repeated limits.maxPaths paths paths' →
        Repeated limits.maxClosureEdges edges edges' →
        (build version switches' links' paths' edges' limits).toOption.map tables =
          (build version switches links paths edges limits).toOption.map tables := by
  constructor
  · intro switches' links' paths' edges' hswitches hlinks hpaths hedges
    have hsame : SameDeclarations limits switches switches' links links' paths paths' edges
        edges' :=
      ⟨.of_perm hswitches, .of_perm hlinks, hpaths.interchangeable, .of_perm hedges⟩
    rw [hsame.toOption_build hdistinct]
  · intro switches' links' paths' edges' hswitches hlinks hpaths hedges
    have hsame : SameDeclarations limits switches switches' links links' paths paths' edges
        edges' :=
      ⟨hswitches.interchangeable fun _ => rfl, hlinks.interchangeable fun _ => rfl,
        hpaths.interchangeable PathDescriptor.Rearranged.refl,
        hedges.interchangeable fun _ => rfl⟩
    rw [hsame.toOption_build hdistinct]

namespace Sample

def left : SwitchDescriptor := { key := ⟨⟨1⟩, ⟨1⟩⟩, portCount := 4 }

def right : SwitchDescriptor := { key := ⟨⟨2⟩, ⟨1⟩⟩, portCount := 4 }

def between : LinkDescriptor := { id := ⟨1⟩, a := { sw := left.key }, b := { sw := right.key } }

def across (hops : List SwitchKey) : PathDescriptor := { id := ⟨1⟩, hops, links := [⟨1⟩] }

end Sample

/-- A pair of linked switches and a path across them, declared backwards. -/
theorem build_canonical_backwards :
    (build ⟨1⟩ [Sample.right, Sample.left] [Sample.between]
        [Sample.across [Sample.right.key, Sample.left.key]] [] {}).toOption.map tables =
      (build ⟨1⟩ [Sample.left, Sample.right] [Sample.between]
        [Sample.across [Sample.left.key, Sample.right.key]] [] {}).toOption.map tables ∧
    (build ⟨1⟩ [Sample.left, Sample.right] [Sample.between]
        [Sample.across [Sample.left.key, Sample.right.key]] [] {}).toOption.isSome = true := by
  have hdistinct : Distinguished [Sample.left, Sample.right] [Sample.between]
      [Sample.across [Sample.left.key, Sample.right.key]] :=
    ⟨by decide +kernel, by decide +kernel, by decide +kernel⟩
  have hhops : (Sample.across [Sample.left.key, Sample.right.key]).Rearranged
      (Sample.across [Sample.right.key, Sample.left.key]) :=
    ⟨rfl, List.Perm.swap _ _ _, List.Perm.refl _⟩
  refine ⟨(build_canonical hdistinct ⟨1⟩ [] {}).1 _ _ _ _ (List.Perm.swap _ _ _)
    (List.Perm.refl _) ⟨_, List.Perm.refl _, .cons hhops .nil⟩ (List.Perm.refl _), ?_⟩
  decide +kernel

end TopologySnapshot

end SwitchFailover.Model
