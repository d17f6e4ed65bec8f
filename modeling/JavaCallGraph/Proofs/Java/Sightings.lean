import JavaCallGraph.Proofs.Java.Placement
import JavaCallGraph.Proofs.Program.Arena

/-!
The calls that a program shows.

A call is shown with its file, its place and whether it lies in a statement of the callable around it.
A program that is loaded from texts shows, text by text, the calls that each of them shows alone.
-/

namespace JavaCallGraph

/-- What a node says of the calls below it: a callable leaves them exposed, a statement or a type
shelters them, anything else leaves that to what lies above. -/
def NodeKind.exposes? : NodeKind → Option Bool
  | callable _ => some true
  | statement _ | type _ => some false
  | _ => none

/-- A call as a program shows it: the file it lies in, and whether it belongs to a callable without
lying in a statement of it. -/
structure Sighting where
  path : Option String
  kind : CallKind
  span : Span
  exposed : Bool
  deriving DecidableEq, Repr

namespace Program

variable {p q : Program} {x : NodeId}

/-- Whether what is appended below a node is exposed. -/
def exposes (p : Program) (n : NodeId) : Bool :=
  ((p.lineage n).findSome? fun a => (p.kind? a).bind (·.exposes?)).getD false

/-- Whether no statement lies between a node and the callable that it belongs to. -/
def exposed (p : Program) (n : NodeId) : Bool :=
  ((p.ancestors n).findSome? fun a => (p.kind? a).bind (·.exposes?)).getD false

def pathOf? (p : Program) (n : NodeId) : Option String := (p.unit? n).map (·.path)

def sighting? (p : Program) (n : NodeId) : Option Sighting :=
  (p.callKind? n).map fun kind =>
    { path := p.pathOf? n, kind, span := p.span n, exposed := p.exposed n }

theorem sighting?_of_call {kind : CallKind} (isCall : p.callKind? x = some kind) :
    p.sighting? x = some ⟨p.pathOf? x, kind, p.span x, p.exposed x⟩ := by
  rw [sighting?, isCall]
  rfl

theorem mem_ids_of_sighting? {seen : Sighting} (shown : p.sighting? x = some seen) : x ∈ p.ids := by
  obtain ⟨kind, isCall, -⟩ := Option.map_eq_some_iff.mp shown
  exact mem_ids.mpr (has_of_callKind? isCall)

/-- The calls of a program in the order of its nodes. -/
def sightings (p : Program) : List Sighting := p.ids.filterMap p.sighting?

theorem Forest.exposed_child (forest : p.Forest) {c : NodeId} (above : p.parent? c = some x) :
    p.exposed c = p.exposes x := by
  rw [exposed, forest.ancestors_child above, exposes, lineage]

theorem exposes_eq (p : Program) (n : NodeId) :
    p.exposes n = ((p.kind? n).bind (·.exposes?)).getD (p.exposed n) := by
  rw [exposes, lineage, List.findSome?_cons, exposed]
  cases (p.kind? n).bind (·.exposes?) <;> rfl

/-! ### Copies show the same -/

namespace Copied

variable {offset : Nat} (copied : q.Copied p offset) (forest : q.Forest) (present : q.has x)

include copied present

theorem callKind? : p.callKind? (x.shift offset) = q.callKind? x :=
  copied.bind_kind? (by rintro (_ | _ | _) <;> rfl) present

include forest

theorem exposed : p.exposed (x.shift offset) = q.exposed x := by
  have same : ∀ a ∈ q.ancestors x,
      (p.kind? (a.shift offset)).bind (·.exposes?) = (q.kind? a).bind (·.exposes?) := by
    intro a above
    exact copied.bind_kind? (by rintro (_ | _ | _) <;> rfl) (forest.has_of_mem_ancestors present above)
  rw [Program.exposed, copied.ancestors forest present, Program.exposed, List.findSome?_map,
    ← List.head?_filterMap, ← List.head?_filterMap]
  exact congrArg (fun l => l.head?.getD false) (List.filterMap_congr same)

theorem exposes : p.exposes (x.shift offset) = q.exposes x := by
  rw [exposes_eq, exposes_eq, copied.exposed forest present,
    copied.bind_kind? (by rintro (_ | _ | _) <;> rfl) present]

theorem sighting? : p.sighting? (x.shift offset) = q.sighting? x := by
  have path : p.pathOf? (x.shift offset) = q.pathOf? x :=
    copied.map_unit? forest present fun _ => rfl
  rw [Program.sighting?, Program.sighting?, copied.callKind? present, copied.span present, path,
    copied.exposed forest present]

end Copied

theorem Copied.kept_callKind? (copied : q.Copied p 0) (present : q.has x) :
    p.callKind? x = q.callKind? x := by
  have same := copied.callKind? present
  rwa [NodeId.shift_zero] at same

theorem Copied.kept_exposed (copied : q.Copied p 0) (forest : q.Forest) (present : q.has x) :
    p.exposed x = q.exposed x := by
  have same := copied.exposed forest present
  rwa [NodeId.shift_zero] at same

theorem Copied.kept_exposes (copied : q.Copied p 0) (forest : q.Forest) (present : q.has x) :
    p.exposes x = q.exposes x := by
  have same := copied.exposes forest present
  rwa [NodeId.shift_zero] at same

theorem ids_graft (p q : Program) : (p.graft q).ids = p.ids ++ q.ids.map (·.shift p.size) := by
  rw [ids, size_graft, List.range_add, List.map_append, ids, ids, List.map_map, List.map_map]
  rfl

theorem sightings_graft (first : p.Forest) (second : q.Forest) :
    (p.graft q).sightings = p.sightings ++ q.sightings := by
  have kept : p.Copied (p.graft q) 0 := copied_of_outline? fun {id} present => by
    rw [outline?, get?_graft_left p q present, outline?]
  rw [sightings, ids_graft, List.filterMap_append, List.filterMap_map, sightings, sightings]
  congr 1
  · refine List.filterMap_congr fun x listed => ?_
    have same := kept.sighting? first (mem_ids.mp listed)
    rwa [NodeId.shift_zero] at same
  · exact List.filterMap_congr fun x listed =>
      (copied_graft p q).sighting? second (mem_ids.mp listed)

/-! ### Loaded programs -/

section

variable {parse : Java.Parser} {sources : List Source}

theorem grown_ofSourcesBy (loaded : ofSourcesBy parse sources = .ok p) : p.Grown := by
  have goesOn : ∀ {before : Program}, before.Grown →
      sources.foldlM (fun p s => do return (← p.addSourceBy parse s).2) before = .ok p → p.Grown := by
    clear loaded
    induction sources with
    | nil =>
      rintro before grown ⟨⟩
      exact grown
    | cons s rest ih =>
      intro before grown loaded
      rw [List.foldlM_cons, addSourceBy] at loaded
      cases read : parse s.text with
      | none =>
        rw [read] at loaded
        cases loaded
      | some root =>
        rw [read] at loaded
        exact ih (Java.grown_lowerSource grown) loaded
  exact goesOn .empty loaded

end

end Program

/-- The calls that a text shows alone. -/
def Source.sightings (parse : Java.Parser) (s : Source) : List Sighting :=
  match parse s.text with
  | some root =>
    (Java.lowerSource .empty s.path s.origin (Sha256.ofText s.text) s.text root).sightings
  | none => []

namespace Program

variable {parse : Java.Parser} {sources : List Source} {p : Program}

theorem sightings_ofSourcesBy (loaded : ofSourcesBy parse sources = .ok p) :
    p.sightings = sources.flatMap (Source.sightings parse) := by
  induction sources generalizing p with
  | nil =>
    cases loaded
    rfl
  | cons s rest ih =>
    obtain ⟨q, r, alone, later, rfl⟩ := graft_of_ofSourcesBy [s] loaded
    obtain ⟨root, read, rfl⟩ := ofSourcesBy_eq_ok alone
    rw [sightings_graft (grown_of_ofSourcesBy alone).1.forest (grown_ofSourcesBy later).forest,
      ih later, List.flatMap_cons, Source.sightings, read]

/-- What a loaded program shows is shown by one of its texts. -/
theorem exists_of_sighting? (loaded : ofSourcesBy parse sources = .ok p) {c : NodeId}
    {seen : Sighting} (shown : p.sighting? c = some seen) :
    ∃ s ∈ sources, ∃ root, parse s.text = some root ∧ ∃ x,
      (Java.lowerSource .empty s.path s.origin (Sha256.ofText s.text) s.text root).sighting? x =
        some seen := by
  have member : seen ∈ p.sightings :=
    List.mem_filterMap.mpr ⟨c, mem_ids_of_sighting? shown, shown⟩
  rw [sightings_ofSourcesBy loaded] at member
  obtain ⟨s, among, inText⟩ := List.mem_flatMap.mp member
  unfold Source.sightings at inText
  split at inText
  · next root read =>
    obtain ⟨x, -, shown⟩ := List.mem_filterMap.mp inText
    exact ⟨s, among, root, read, x, shown⟩
  · cases inText

end Program

namespace Java

variable {path : String} {origin : UnitOrigin} {contentHash text : String} {root : Syntax}

/-- All nodes of a file lie in it. -/
theorem pathOf?_lowerSource {x : NodeId}
    (present : (lowerSource .empty path origin contentHash text root).has x) :
    (lowerSource .empty path origin contentHash text root).pathOf? x = some path := by
  let q := lowerSource .empty path origin contentHash text root
  let path? (k : NodeKind) : Option String := k.unit?.map (·.path)
  have plain : ∀ k : NodeKind, path? k.outline = path? k := by rintro (_ | _ | _) <;> rfl
  -- no other unit is ever entered
  have single : ∀ u found, (q.kind? u).bind path? = some found → found = path := by
    apply lowerSource_invariant fun q => ∀ u found, (q.kind? u).bind path? = some found → found = path
    · intro u found read
      rw [Program.kind?, Program.get?_addUnit] at read
      split at read
      · cases read
        rfl
      · cases read
    · intro q attach k extent single late present bare u found read
      rw [Program.bind_kind?_eq plain, attach.outline?_append] at read
      split at read
      · have none : path? k.outline = none := by
          rw [plain]
          exact congrArg (Option.map _) bare.unit?
        rw [Option.bind_some, none] at read
        cases read
      · exact single u found ((Program.bind_kind?_eq plain q u).trans read)
  have grown : q.Grown := grown_lowerSource .empty
  obtain ⟨u, unit, found, -, kind⟩ := grown.exists_unit present
  have same := single u unit.path (by rw [kind]; rfl)
  change q.pathOf? x = some path
  rw [Program.pathOf?, Program.unit?, found, Option.bind_some, kind, ← same]
  rfl

end Java

end JavaCallGraph
