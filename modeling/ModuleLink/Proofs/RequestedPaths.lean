import ModuleLink.PipeEndpoints
import ModuleLink.Proofs.EnvelopeRoundTrip

/-! # Paths that a request names

A listener accepts a request whose two paths start with the steps of its directory and take one step
more. As paths are compared this step may also be the one up, or the one that stays if the directory
has no steps at all, and then what is opened is no entry of the directory. -/
namespace ModuleLink

namespace Path

/-- A name that stands for an entry wherever it stands in a path. -/
structure Ordinary (name : List Char) : Prop where
  some : name ≠ []
  notHere : name ≠ ['.']
  notUp : name ≠ ['.', '.']
  noSlash : '/' ∉ name

/-- The path takes the steps to the directory, and from there one ordinary step. -/
def IsEntryOf (p directory : Path) : Prop :=
  ∃ name, Ordinary name ∧ p.steps = directory.steps ++ [.entry name]

variable {p directory : Path}

theorem notMem_of_mem_splitOn {a : Char} {text part : List Char} (h : part ∈ text.splitOn a) :
    a ∉ part := by
  induction text generalizing part with
  | nil =>
    rw [List.splitOn_nil, List.mem_singleton] at h
    exact h ▸ List.not_mem_nil
  | cons c text ih =>
    obtain ⟨first, rest, parts⟩ := List.exists_cons_of_ne_nil (List.splitOn_ne_nil a text)
    rw [List.splitOn_cons_eq_if_modifyHead, parts] at h
    rw [parts] at ih
    by_cases cut : c = a
    · rw [if_pos (beq_iff_eq.mpr cut)] at h
      rcases List.mem_cons.mp h with rfl | h
      · exact List.not_mem_nil
      · exact ih h
    · rw [if_neg (beq_iff_eq.not.mpr cut), List.modifyHead_cons] at h
      rcases List.mem_cons.mp h with rfl | h
      · exact List.not_mem_cons_of_ne_of_not_mem (Ne.symm cut) (ih List.mem_cons_self)
      · exact ih (List.mem_cons_of_mem _ h)

theorem ordinary_of_piece {text name : List Char} (whole : '/' ∉ text)
    (h : piece text = some (.entry name)) : Ordinary name := by
  unfold piece at h
  split at h
  case h_1 | h_2 | h_3 => cases h
  case h_4 some here up =>
    obtain rfl := PathStep.entry.inj (Option.some.inj h)
    exact ⟨some, here, up, whole⟩

theorem ordinary_of_mem_walk {name : List Char} (h : .entry name ∈ p.walk) : Ordinary name := by
  have spelled : .entry name ∈ (p.splitOn '/').filterMap piece := by
    simp only [walk] at h
    split at h
    · exact (List.mem_cons.mp h).resolve_left nofun
    · exact h
  obtain ⟨text, among, read⟩ := List.mem_filterMap.mp spelled
  exact ordinary_of_piece (notMem_of_mem_splitOn among) read

/-- Only the first step can be one that stays. -/
theorem steps_cases (p : Path) :
    p.steps = p.walk.filter (· ≠ .here) ∨
      ∃ rest, p.walk = .here :: rest ∧ p.steps = .here :: rest.filter (· ≠ .here) := by
  unfold steps
  split
  · exact .inr ⟨_, ‹_›, rfl⟩
  · exact .inl rfl

theorem mem_walk_of_mem_steps {step : PathStep} (h : step ∈ p.steps) : step ∈ p.walk := by
  rcases p.steps_cases with same | ⟨rest, starts, same⟩
  · exact (List.mem_filter.mp (same ▸ h)).1
  · rw [starts]
    rcases List.mem_cons.mp (same ▸ h) with rfl | h
    · exact List.mem_cons_self
    · exact List.mem_cons_of_mem _ (List.mem_filter.mp h).1

theorem here_notMem_filter (steps : List PathStep) : .here ∉ steps.filter (· ≠ .here) := by simp

/-- A path whose last step stays has no other. -/
theorem eq_nil_of_steps_here {front : List PathStep} (h : p.steps = front ++ [.here]) :
    front = [] := by
  rcases p.steps_cases with same | ⟨rest, -, same⟩
  · refine absurd ?_ (here_notMem_filter p.walk)
    rw [← same, h]
    exact List.mem_append_right _ (List.mem_singleton.mpr rfl)
  · cases front with
    | nil => rfl
    | cons step front =>
      have tail := (List.cons.inj (h.symm.trans same)).2
      refine absurd ?_ (here_notMem_filter rest)
      rw [← tail]
      exact List.mem_append_right _ (List.mem_singleton.mpr rfl)

theorem parent?_eq_some_iff {front : List PathStep} :
    p.parent? = some front ↔ ∃ last, last ≠ .root ∧ p.steps = front ++ [last] := by
  rcases List.eq_nil_or_concat p.steps with empty | ⟨initial, last, spelled⟩
  · simp [parent?, empty]
  · rw [List.concat_eq_append] at spelled
    cases last <;> simp [parent?, spelled, eq_comm]

/-- A path that goes one step on from a directory leads to an entry, if the step neither goes up nor
stays. -/
theorem isEntryOf_iff (h : p.parent? = some directory.steps) :
    p.IsEntryOf directory ↔
      p.steps ≠ directory.steps ++ [.up] ∧ p.steps ≠ directory.steps ++ [.here] := by
  obtain ⟨last, notRoot, spelled⟩ := parent?_eq_some_iff.mp h
  constructor
  · rintro ⟨name, -, entry⟩
    simp [entry]
  · rintro ⟨notUp, notHere⟩
    cases last with
    | root => exact absurd rfl notRoot
    | here => exact absurd spelled notHere
    | up => exact absurd spelled notUp
    | entry name =>
      have among : .entry name ∈ p.steps := spelled ▸ List.mem_append_right _ List.mem_cons_self
      exact ⟨name, ordinary_of_mem_walk (mem_walk_of_mem_steps among), spelled⟩

end Path

def PathStep.destination (place : Place) : PathStep → Place
  | .root => []
  | .here => place
  | .up => place.dropLast
  | .entry name => place ++ [name]

namespace FileSystem

variable {s : FileSystem} {place : Place} {steps : List PathStep} {start : Place}

/-- A step that stays leads nowhere else. -/
theorem follow_filter (h : steps.foldlM s.follow start = .ok place) :
    (steps.filter (· ≠ .here)).foldlM s.follow start = .ok place := by
  induction steps generalizing start with
  | nil => exact h
  | cons step steps ih =>
    rw [List.foldlM_cons] at h
    obtain ⟨next, stepped, rest⟩ := ok_of_bind h
    by_cases stays : step = .here
    · subst stays
      obtain ⟨-, -, same⟩ := ok_of_bind stepped
      obtain rfl := Except.ok.inj same
      simpa using ih rest
    · have kept : (step :: steps).filter (· ≠ .here) = step :: steps.filter (· ≠ .here) :=
        List.filter_cons_of_pos (decide_eq_true stays)
      rw [kept, List.foldlM_cons, stepped]
      exact ih rest

/-- A path leads where the steps lead by which it is compared. -/
theorem reach_steps {p : Path} (h : s.reach p.walk = .ok place) : s.reach p.steps = .ok place := by
  rcases p.steps_cases with same | ⟨rest, starts, same⟩
  · rw [same]
    exact follow_filter h
  · rw [starts, reach, List.foldlM_cons] at h
    obtain ⟨next, stepped, remaining⟩ := ok_of_bind h
    rw [same, reach, List.foldlM_cons, stepped]
    exact follow_filter remaining

theorem reach_append (front : List PathStep) (last : PathStep) :
    s.reach (front ++ [last]) = s.reach front >>= fun home => s.follow home last := by
  rw [reach, List.foldlM_append]
  refine congrArg (s.reach front >>= ·) (funext fun home => ?_)
  rw [List.foldlM_cons]
  cases s.follow home last <;> rfl

theorem follow_ok {last : PathStep} (h : s.follow start last = .ok place) :
    place = last.destination start := by
  cases last with
  | root => exact (Except.ok.inj h).symm
  | here | up =>
    obtain ⟨-, -, same⟩ := ok_of_bind h
    exact (Except.ok.inj same).symm
  | entry name =>
    obtain ⟨-, -, h⟩ := ok_of_bind h
    obtain ⟨-, same⟩ := ok_of_throw h
    exact (Except.ok.inj same).symm

theorem reach_of_locate {p : Path} (h : s.locate p = .ok place) : s.reach p.walk = .ok place := by
  obtain ⟨-, -, h⟩ := ok_of_bind h
  exact (ok_of_throw h).2

theorem find_eq_ok_iff {p : Path} {n : Nat} {node : FileNode} : s.find p = .ok (n, node) ↔
    ∃ place, s.locate p = .ok place ∧ s.number? place = some n ∧
      (s.nodes[n]?).getD (.regular []) = node ∧ (p.endsInSlash = true → node.isDirectory = true) := by
  constructor
  · intro h
    obtain ⟨place, located, h⟩ := ok_of_bind h
    cases number : s.number? place with
    | none =>
      rw [number] at h
      cases h
    | some k =>
      rw [number] at h
      obtain ⟨closed, same⟩ := ok_of_throw h
      obtain ⟨rfl, rfl⟩ := Prod.mk.inj (Except.ok.inj same)
      exact ⟨place, located, number, rfl, by simpa using closed⟩
  · rintro ⟨place, located, number, rfl, closed⟩
    have passes : (p.endsInSlash && !((s.nodes[n]?).getD (.regular [])).isDirectory) = false := by
      cases h : p.endsInSlash <;> simp [closed, h]
    simp only [find, located, bind, Except.bind, number, passes]
    rfl

theorem openFile_eq_ok_iff {t : FileSystem} {p : Path} {reads writes : Bool} {file : Nat} :
    s.openFile p reads writes = .ok (file, t) ↔
      ∃ n node, s.find p = .ok (n, node) ∧ (writes = true → node.isDirectory = false) ∧
        ((reads = true → node.allows .read = true) ∧ (writes = true → node.allows .write = true)) ∧
        node.isSocket = false ∧
        (writes = true → reads = false → node.isPipe = true → s.hasReader n = true) ∧
        (file, t) = s.openNode n reads writes := by
  constructor
  · intro h
    obtain ⟨⟨n, node⟩, found, h⟩ := ok_of_bind h
    obtain ⟨plain, h⟩ := ok_of_throw h
    obtain ⟨allowed, h⟩ := ok_of_throw h
    obtain ⟨notSocket, h⟩ := ok_of_throw h
    obtain ⟨attended, h⟩ := ok_of_throw h
    exact ⟨n, node, found, by simpa using plain, by simpa using allowed, by simpa using notSocket,
      by simpa using attended, (Except.ok.inj h).symm⟩
  · rintro ⟨n, node, found, plain, allowed, notSocket, attended, same⟩
    have plain : (writes && node.isDirectory) = false := by simpa using plain
    have allowed : (reads && !node.allows .read || writes && !node.allows .write) = false := by
      simpa using allowed
    have attended : (writes && !reads && node.isPipe && !s.hasReader n) = false := by
      simpa using attended
    rw [openFile, found]
    show (if (writes && node.isDirectory) = true then _ else _) = _
    rw [plain, same]
    simp only [allowed, notSocket, attended, Bool.false_eq_true, if_false]
    rfl

/-- Whoever opens a path has what stands at the place to which it leads. -/
theorem openFile_ok {p : Path} {reads writes : Bool} {opened : Nat × FileSystem}
    (h : s.openFile p reads writes = .ok opened) :
    ∃ place n, s.reach p.steps = .ok place ∧ s.number? place = some n ∧
      opened = s.openNode n reads writes := by
  obtain ⟨n, node, found, -, -, -, -, same⟩ := openFile_eq_ok_iff.mp h
  obtain ⟨place, located, number, -, -⟩ := find_eq_ok_iff.mp found
  exact ⟨place, n, reach_steps (reach_of_locate located), number, same⟩

end FileSystem

namespace PipeRequest

variable {directory : Path} {line : Bytes} {r : PipeRequest}

/-- A text is cut at the first tab. -/
theorem cut_iff {text up down : List Char} :
    '\t' ∈ text ∧ text.takeWhile (· ≠ '\t') = up ∧ (text.dropWhile (· ≠ '\t')).drop 1 = down ↔
      text = up ++ '\t' :: down ∧ '\t' ∉ up := by
  constructor
  · rintro ⟨there, rfl, rfl⟩
    induction text with
    | nil => cases there
    | cons c text ih =>
      by_cases tab : c = '\t'
      · simp [tab]
      · obtain ⟨cut, clean⟩ := ih ((List.mem_cons.mp there).resolve_left (Ne.symm tab))
        simp only [List.takeWhile_cons, List.dropWhile_cons, ne_eq, tab, not_false_eq_true,
          decide_true, if_true] at cut clean ⊢
        exact ⟨congrArg (c :: ·) cut, List.not_mem_cons_of_ne_of_not_mem (Ne.symm tab) clean⟩
  · rintro ⟨rfl, clean⟩
    have goesOn : ∀ c ∈ up, decide (c ≠ '\t') = true := fun c hc =>
      decide_eq_true fun tab => clean (tab ▸ hc)
    refine ⟨List.mem_append_right _ List.mem_cons_self, ?_, ?_⟩
    · rw [List.takeWhile_append_of_pos goesOn]
      simp
    · rw [List.dropWhile_append_of_pos goesOn]
      simp

/-- A line is accepted exactly if it is a text that spells two paths with a tab between them, and both
go one step on from the directory. -/
theorem parse_eq_ok_iff : parse directory line = .ok r ↔
    (∃ text, characters? line = some text ∧ trimEnd text = r.up ++ '\t' :: r.down) ∧
      '\t' ∉ r.up ∧ r.up.parent? = some directory.steps ∧ r.down.parent? = some directory.steps := by
  have taken {text : List Char} (read : characters? line = some text) :
      parse directory line = .ok r ↔ ('\t' ∈ trimEnd text ∧
        (trimEnd text).takeWhile (· ≠ '\t') = r.up ∧
        ((trimEnd text).dropWhile (· ≠ '\t')).drop 1 = r.down) ∧
          r.up.parent? = some directory.steps ∧ r.down.parent? = some directory.steps := by
    simp only [parse, read]
    constructor
    · intro h
      split at h
      case isFalse => cases h
      case isTrue inside =>
        obtain rfl := Except.ok.inj h
        exact ⟨⟨inside.1, rfl, rfl⟩, inside.2⟩
    · obtain ⟨up, down⟩ := r
      rintro ⟨⟨tab, rfl, rfl⟩, inside⟩
      exact if_pos ⟨tab, inside⟩
  cases read : characters? line with
  | none => simp [parse, read]
  | some text =>
    rw [taken read, cut_iff]
    simp [and_assoc]

/-- What an accepted request names is an entry of the directory, unless the last step goes up again, or
stays at a directory that has no steps. Opened it is the entry, the directory above or the directory
itself. -/
theorem named_entry_iff (accepted : parse directory line = .ok r) (p : Path)
    (named : p = r.up ∨ p = r.down) :
    (p.IsEntryOf directory ↔
      p.steps ≠ directory.steps ++ [.up] ∧ p.steps ≠ directory.steps ++ [.here]) ∧
    (p.steps = directory.steps ++ [.here] → directory.steps = []) ∧
    ∀ (s : FileSystem) (home : Place) (reads writes : Bool) (opened : Nat × FileSystem),
      s.reach directory.walk = .ok home → s.openFile p reads writes = .ok opened →
      ∃ place n, s.number? place = some n ∧ opened = s.openNode n reads writes ∧
        (p.IsEntryOf directory → ∃ name, Path.Ordinary name ∧ place = home ++ [name]) ∧
        (p.steps = directory.steps ++ [.up] → place = home.dropLast) ∧
        (p.steps = directory.steps ++ [.here] → place = home) := by
  obtain ⟨-, -, up, down⟩ := parse_eq_ok_iff.mp accepted
  have parent : p.parent? = some directory.steps := by
    rcases named with rfl | rfl
    · exact up
    · exact down
  refine ⟨Path.isEntryOf_iff parent, Path.eq_nil_of_steps_here,
    fun s home reads writes opened there hopen => ?_⟩
  obtain ⟨place, n, reached, number, same⟩ := FileSystem.openFile_ok hopen
  have onward (last : PathStep) (spelled : p.steps = directory.steps ++ [last]) :
      s.follow home last = .ok place := by
    rw [spelled, FileSystem.reach_append, FileSystem.reach_steps there] at reached
    exact reached
  refine ⟨place, n, number, same, ?_, fun spelled => ?_, fun spelled => ?_⟩
  · rintro ⟨name, ordinary, spelled⟩
    exact ⟨name, ordinary, FileSystem.follow_ok (onward _ spelled)⟩
  · exact FileSystem.follow_ok (onward _ spelled)
  · exact FileSystem.follow_ok (onward _ spelled)

def shared : FileSystem where
  names := [([], 0), (["d".toList], 1), (["d".toList, "x".toList], 2)]
  nodes := [.directory 0o755, .directory 0o777, .pipe 0o600 []]

/-- A client asks for what is above the directory, by a name with a slash too many. -/
def climbing : PipeRequest := ⟨"/d//..".toList, "/d/./x".toList⟩

/-- A listener accepts a request for the directory above its own, and has it open then. -/
theorem names_parent :
    parse "/d".toList climbing.line = .ok climbing ∧ ¬ climbing.up.IsEntryOf "/d".toList ∧
      shared.openFile climbing.up true false = .ok (shared.openNode 0 true false) := by
  have parent : climbing.up.parent? = some (Path.steps "/d".toList) := by decide +kernel
  refine ⟨by decide +kernel, fun entry => ?_, by decide +kernel⟩
  exact ((Path.isEntryOf_iff parent).mp entry).1 (by decide +kernel)

theorem named_entry_iff_climbing :
    parse "/d".toList climbing.line = .ok climbing ∧ climbing.down.IsEntryOf "/d".toList ∧
      shared.reach (Path.walk "/d".toList) = .ok ["d".toList] ∧
      shared.openFile climbing.down true false = .ok (shared.openNode 2 true false) ∧
      ∃ name n, shared.number? ["d".toList, name] = some n ∧
        shared.openNode 2 true false = shared.openNode n true false := by
  have accepted : parse "/d".toList climbing.line = .ok climbing := by decide +kernel
  have there : shared.reach (Path.walk "/d".toList) = .ok ["d".toList] := by decide +kernel
  have hopen : shared.openFile climbing.down true false = .ok (shared.openNode 2 true false) := by
    decide +kernel
  obtain ⟨iff, -, leads⟩ := named_entry_iff accepted climbing.down (.inr rfl)
  have entry := iff.mpr (by decide +kernel)
  obtain ⟨place, n, number, same, inside, -, -⟩ := leads shared _ true false _ there hopen
  obtain ⟨name, -, rfl⟩ := inside entry
  exact ⟨accepted, entry, there, hopen, name, n, number, same⟩

end PipeRequest

end ModuleLink
