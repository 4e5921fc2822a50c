import ModuleLink.Proofs.RequestedPaths

/-! # Files after a client has asked

Whoever asks makes two pipes, has one of them open and writes a line to a third. The ways through the
directories stay as they are, every name leads where it led, and the other files are not touched. -/
namespace ModuleLink

/-- A stream that does nothing but take bytes takes all of them. -/
theorem Sink.writeAll_idle (bytes : Bytes) :
    (({} : Sink).writeAll bytes).1 = .ok () ∧ (({} : Sink).writeAll bytes).2.written = bytes := by
  have took : ({} : Sink).write (.plain bytes.length) bytes =
      (.took bytes.length, { written := bytes, calls := [.plain bytes.length] }) := by
    simp [Sink.write, Sink.take, Call.room]
  fun_cases Sink.writeAll
  case case1 empty => exact ⟨rfl, empty.symm⟩
  case case2 nonempty t h =>
    have none := WriteAnswer.took.inj (congrArg Prod.fst (took.symm.trans h))
    exact absurd (List.length_eq_zero_iff.mp none) nonempty
  case case3 nonempty n t h =>
    obtain ⟨all, rfl⟩ := Prod.mk.inj (took.symm.trans h)
    have all : bytes.length = n + 1 := WriteAnswer.took.inj all
    rw [← all, List.drop_length, writeAll, dif_pos rfl]
    exact ⟨rfl, rfl⟩
  case case4 nonempty t cause h _ => cases took.symm.trans h
  case case5 nonempty t cause h _ => cases took.symm.trans h

namespace FileSystem

variable {s t u : FileSystem} {p : Path} {place start : Place} {n : Nat} {node : FileNode}

theorem checkSearch_eq_ok_iff : s.checkSearch place = .ok () ↔
    ∃ node, s.node? place = some node ∧ node.isDirectory = true ∧ node.allows .search = true := by
  unfold checkSearch
  cases s.node? place with
  | none => simp
  | some node => cases directory : node.isDirectory <;> cases node.allows .search <;> simp [directory]

theorem node_of_find (found : s.find p = .ok (n, node)) (some : node ≠ .regular []) :
    s.nodes[n]? = .some node := by
  obtain ⟨-, -, -, there, -⟩ := find_eq_ok_iff.mp found
  cases h : s.nodes[n]? with
  | none =>
    rw [h] at there
    exact absurd there.symm some
  | some _ =>
    rw [h] at there
    exact congrArg Option.some there

/-- One file system has all the names of another one, and no way through it is new or closed. -/
structure Extends (t s : FileSystem) : Prop where
  working : t.working = s.working
  search : ∀ place, t.checkSearch place = .ok () ↔ s.checkSearch place = .ok ()
  numbers : ∀ place n, s.number? place = some n → t.number? place = some n

theorem Extends.trans (later : u.Extends t) (earlier : t.Extends s) : u.Extends s where
  working := later.working.trans earlier.working
  search place := (later.search place).trans (earlier.search place)
  numbers place n h := later.numbers place n (earlier.numbers place n h)

theorem Extends.of_same (working : t.working = s.working) (names : t.names = s.names)
    (nodes : t.nodes = s.nodes) : t.Extends s where
  working := working
  search place := by simp only [checkSearch, node?, number?, names, nodes]
  numbers place n h := by rwa [number?, names]

theorem Extends.follow (h : t.Extends s) (step : PathStep) :
    t.follow start step = .ok place ↔ s.follow start step = .ok place := by
  have searches {α : Type} (f : Unit → Except SystemError α) (v : α) :
      (t.checkSearch start >>= f) = .ok v ↔ (s.checkSearch start >>= f) = .ok v := by
    constructor
    · intro h'
      obtain ⟨_, searched, rest⟩ := ok_of_bind h'
      rw [(h.search start).mp searched]
      exact rest
    · intro h'
      obtain ⟨_, searched, rest⟩ := ok_of_bind h'
      rw [(h.search start).mpr searched]
      exact rest
  cases step with
  | root => rfl
  | here | up | entry => exact searches _ _

theorem Extends.reach (h : t.Extends s) (steps : List PathStep) :
    t.reach steps = .ok place ↔ s.reach steps = .ok place := by
  unfold FileSystem.reach
  rw [h.working]
  generalize s.working = start
  induction steps generalizing start with
  | nil => rfl
  | cons step steps ih =>
    rw [List.foldlM_cons, List.foldlM_cons]
    constructor
    · intro h'
      obtain ⟨next, stepped, rest⟩ := ok_of_bind h'
      rw [(h.follow step).mp stepped]
      exact (ih next).mp rest
    · intro h'
      obtain ⟨next, stepped, rest⟩ := ok_of_bind h'
      rw [(h.follow step).mpr stepped]
      exact (ih next).mpr rest

theorem Extends.locate (h : t.Extends s) : t.locate p = .ok place ↔ s.locate p = .ok place := by
  unfold FileSystem.locate
  cases checkText p with
  | error e => exact Iff.rfl
  | ok =>
    by_cases empty : p = []
    · simp only [empty, if_true]
      exact Iff.rfl
    · simp only [empty, if_false]
      exact h.reach p.walk

/-- A path leads where it led, and finds what is there now. -/
theorem Extends.find (h : t.Extends s) (found : s.find p = .ok (n, node)) {now : FileNode}
    (there : t.nodes[n]? = some now) (directory : node.isDirectory = true → now.isDirectory = true) :
    t.find p = .ok (n, now) := by
  obtain ⟨place, located, number, -, closed⟩ := find_eq_ok_iff.mp found
  refine find_eq_ok_iff.mpr ⟨place, h.locate.mpr located, h.numbers place n number, ?_,
    fun slash => directory (closed slash)⟩
  rw [there, Option.getD_some]

theorem number?_of_names (names : t.names = s.names ++ [(place, n)]) (q : Place) :
    t.number? q = (s.number? q).or (if q = place then some n else none) := by
  rw [number?, names, List.lookup_append, number?]
  by_cases same : q = place
  · rw [same, List.lookup_cons_self, if_pos rfl]
  · rw [List.lookup_cons, beq_eq_false_iff_ne.mpr same, if_neg same, List.lookup_nil]

theorem number?_addName (q : Place) :
    (s.addName place node).2.number? q =
      (s.number? q).or (if q = place then some s.nodes.length else none) :=
  number?_of_names rfl q

theorem extends_addName (plain : node.isDirectory = false) :
    (s.addName place node).2.Extends s where
  working := rfl
  search q := by
    simp only [checkSearch_eq_ok_iff, node?, Option.bind_eq_some_iff, number?_addName]
    constructor
    · rintro ⟨found, ⟨k, number, there⟩, directory, allowed⟩
      have there : (s.nodes ++ [node])[k]? = some found := there
      by_cases old : k < s.nodes.length
      · rw [List.getElem?_append_left old] at there
        refine ⟨found, ⟨k, ?_, there⟩, directory, allowed⟩
        rcases Option.or_eq_some_iff.mp number with number | ⟨-, number⟩
        · exact number
        · obtain ⟨-, last⟩ := Option.ite_none_right_eq_some.mp number
          exact absurd (Option.some.inj last) (Nat.ne_of_gt old)
      · rw [List.getElem?_append_right (Nat.le_of_not_lt old)] at there
        obtain rfl := List.mem_singleton.mp (List.mem_of_getElem? there)
        rw [plain] at directory
        cases directory
    · rintro ⟨found, ⟨k, number, there⟩, directory, allowed⟩
      obtain ⟨old, -⟩ := List.getElem?_eq_some_iff.mp there
      refine ⟨found, ⟨k, ?_, ?_⟩, directory, allowed⟩
      · rw [number, Option.some_or]
      · exact (List.getElem?_append_left old).trans there
  numbers q n h := by rw [number?_addName, h, Option.some_or]

theorem extends_setNode {old : FileNode} (there : s.nodes[n]? = some old)
    (plain : old.isDirectory = false) (plain' : node.isDirectory = false) :
    (s.setNode n node).Extends s where
  working := rfl
  search q := by
    simp only [checkSearch_eq_ok_iff, node?, Option.bind_eq_some_iff]
    constructor
    · rintro ⟨found, ⟨k, number, now⟩, directory, allowed⟩
      have now : (s.nodes.set n node)[k]? = some found := now
      by_cases same : n = k
      · subst same
        rw [List.getElem?_set_self (List.getElem?_eq_some_iff.mp there).1] at now
        obtain rfl := Option.some.inj now
        rw [plain'] at directory
        cases directory
      · rw [List.getElem?_set_ne same] at now
        exact ⟨found, ⟨k, number, now⟩, directory, allowed⟩
    · rintro ⟨found, ⟨k, number, was⟩, directory, allowed⟩
      have other : n ≠ k := by
        rintro rfl
        obtain rfl := Option.some.inj (there.symm.trans was)
        rw [plain] at directory
        cases directory
      exact ⟨found, ⟨k, number, (List.getElem?_set_ne other).trans was⟩, directory, allowed⟩
  numbers _ _ h := h

theorem make_eq_ok_iff : s.make p node = .ok (n, t) ↔
    ∃ place, s.locate p = .ok place ∧ s.checkFree p.walk place = .ok () ∧ p.endsInSlash = false ∧
      s.checkChange place = .ok () ∧ n = s.nodes.length ∧ t = (s.addName place node).2 := by
  constructor
  · intro h
    obtain ⟨place, located, h⟩ := ok_of_bind h
    obtain ⟨_, free, h⟩ := ok_of_bind h
    obtain ⟨slash, h⟩ := ok_of_throw h
    obtain ⟨_, changeable, h⟩ := ok_of_bind h
    obtain ⟨rfl, rfl⟩ := Prod.mk.inj (Except.ok.inj h)
    exact ⟨place, located, free, by simpa using slash, changeable, rfl, rfl⟩
  · rintro ⟨place, located, free, slash, changeable, rfl, rfl⟩
    rw [make, located]
    show (s.checkFree p.walk place >>= fun _ => _) = _
    rw [free]
    show (if p.endsInSlash = true then _ else _) = _
    rw [slash]
    show (s.checkChange place >>= fun _ => _) = _
    rw [changeable]
    rfl

theorem find_of_vacant (located : s.locate p = .ok place) (vacant : s.number? place = none) :
    s.find p = .error .noEntry := by
  simp only [find, located, bind, Except.bind, vacant]
  rfl

theorem make_ok (made : s.make p node = .ok (n, t)) (plain : node.isDirectory = false) :
    ∃ place, s.locate p = .ok place ∧ s.number? place = none ∧
      t.find p = .ok (s.nodes.length, node) ∧ t.Extends s ∧
      t.names = s.names ++ [(place, s.nodes.length)] ∧ t.nodes = s.nodes ++ [node] ∧
      t.opened = s.opened := by
  obtain ⟨place, located, free, slash, -, -, rfl⟩ := make_eq_ok_iff.mp made
  have vacant : s.number? place = none := by
    unfold checkFree at free
    split at free
    · rename_i h
      exact Option.isNone_iff_eq_none.mp (Bool.and_eq_true_iff.mp h).2
    · cases free
  have grown : (s.addName place node).2.Extends s := extends_addName plain
  have found : (s.addName place node).2.find p = .ok (s.nodes.length, node) := by
    refine find_eq_ok_iff.mpr ⟨place, grown.locate.mpr located, ?_, ?_, ?_⟩
    · rw [number?_addName, vacant, if_pos rfl, Option.none_or]
    · show ((s.nodes ++ [node])[s.nodes.length]?).getD _ = _
      rw [List.getElem?_concat_length, Option.getD_some]
    · rw [slash]
      exact nofun
  exact ⟨place, located, vacant, found, grown, rfl, rfl, rfl⟩

theorem opened?_openNode {reads writes : Bool} (there : s.nodes[n]? = some node) :
    (s.openNode n reads writes).2.opened? s.opened.length = some (⟨n, reads, writes, 0⟩, node) := by
  simp [openNode, opened?, there]

theorem hasReader_openNode (h : s.hasReader n = true) (k : Nat) (reads writes : Bool) :
    (s.openNode k reads writes).2.hasReader n = true := by
  rw [hasReader, openNode, List.any_append, ← hasReader, h, Bool.true_or]

/-- A pipe that others read loses nothing when a writer leaves. -/
theorem close_openNode {mode : Nat} {content : Bytes} (there : s.nodes[n]? = some (.pipe mode content))
    (attended : s.hasReader n = true) :
    (s.openNode n false true).2.close s.opened.length = { s with opened := s.opened ++ [none] } := by
  have left (file : Option OpenFile) :
      (s.opened ++ [file]).set s.opened.length none = s.opened ++ [none] := by simp
  have stays : { s with opened := s.opened ++ [none] }.hasReader n = true := by
    rw [hasReader, List.any_append, ← hasReader, attended, Bool.true_or]
  rw [close, opened?_openNode there]
  simp only [openNode, left, stays, Bool.true_or, if_true]

/-- What is written to a pipe that others read is at the end of it, and stays there. -/
theorem close_writeAll {mode : Nat} {content : Bytes} (there : s.nodes[n]? = some (.pipe mode content))
    (attended : s.hasReader n = true) (bytes : Bytes) :
    let written := (s.openNode n false true).2.writeAll s.opened.length bytes
    written.1 = .ok () ∧ written.2.close s.opened.length =
      { s.setNode n (.pipe mode (content ++ bytes)) with opened := s.opened ++ [none] } := by
  intro written
  have opened : (s.openNode n false true).2.opened? s.opened.length =
      some (⟨n, false, true, 0⟩, .pipe mode content) := opened?_openNode there
  have sink : (s.openNode n false true).2.sink s.opened.length = {} := by
    simp only [FileSystem.sink, opened, hasReader_openNode attended, Bool.not_true]
  obtain ⟨result, all⟩ := Sink.writeAll_idle bytes
  have after : written.2 = ((s.setNode n (.pipe mode (content ++ bytes))).openNode n false true).2 := by
    show (s.openNode n false true).2.put s.opened.length
      (((s.openNode n false true).2.sink s.opened.length).writeAll bytes).2.written = _
    rw [sink, all, put, opened]
    rfl
  constructor
  · show (((s.openNode n false true).2.sink s.opened.length).writeAll bytes).1 = _
    rw [sink, result]
  · rw [after]
    exact close_openNode (List.getElem?_set_self (List.getElem?_eq_some_iff.mp there).1) attended

/-- What is left by whoever asks on a pipe for two pipes of its own: both are new and empty, it has one
of them open to read, its line is at the end of the pipe on which it asks, and that is all. -/
structure Asked (s : FileSystem) (r : PipeRequest) (endpoint : Path) (n mode : Nat) (content : Bytes)
    (t : FileSystem) : Prop where
  vacant : s.find r.up = .error .noEntry ∧ s.find r.down = .error .noEntry
  up : t.find r.up = .ok (s.nodes.length, .pipe 0o600 [])
  down : t.find r.down = .ok (s.nodes.length + 1, .pipe 0o600 [])
  endpoint : t.find endpoint = .ok (n, .pipe mode (content ++ r.line))
  ways : t.Extends s
  names : ∃ up down, t.names = s.names ++ [(up, s.nodes.length), (down, s.nodes.length + 1)]
  nodes : t.nodes =
    s.nodes.set n (.pipe mode (content ++ r.line)) ++ [.pipe 0o600 [], .pipe 0o600 []]
  opened : t.opened = s.opened ++ [some ⟨s.nodes.length + 1, true, false, 0⟩, none]

section Asking

variable {r : PipeRequest} {endpoint : Path} {mode : Nat} {content : Bytes}
variable {s₁ s₂ s₃ s₄ : FileSystem} {up down reader ask : Nat}

theorem extends_openNode (n : Nat) (reads writes : Bool) : (s.openNode n reads writes).2.Extends s :=
  .of_same rfl rfl rfl

theorem extends_write (there : s.nodes[n]? = some (.pipe mode content)) (bytes : Bytes)
    (opened : List (Option OpenFile)) :
    { s.setNode n (.pipe mode (content ++ bytes)) with opened }.Extends s :=
  .trans (t := s.setNode n (.pipe mode (content ++ bytes))) (.of_same rfl rfl rfl)
    (extends_setNode there rfl rfl)

theorem openFile_found {reads writes : Bool} {file : Nat}
    (h : s.openFile p reads writes = .ok (file, t)) (found : s.find p = .ok (n, node)) :
    file = s.opened.length ∧ t = (s.openNode n reads writes).2 ∧
      (writes = true → reads = false → node.isPipe = true → s.hasReader n = true) := by
  obtain ⟨k, node', found', -, -, -, attended, same⟩ := openFile_eq_ok_iff.mp h
  obtain ⟨rfl, rfl⟩ := Prod.mk.inj (Except.ok.inj (found'.symm.trans found))
  exact ⟨congrArg Prod.fst same, congrArg Prod.snd same, attended⟩

/-- Two pipes are made, and the second one is opened to read it. -/
theorem make_pair (made : s.make r.up (.pipe 0o600 []) = .ok (up, s₁))
    (made' : s₁.make r.down (.pipe 0o600 []) = .ok (down, s₂))
    (reads : s₂.openFile r.down true false = .ok (reader, s₃)) :
    s.find r.up = .error .noEntry ∧ s.find r.down = .error .noEntry ∧
      s₃.find r.up = .ok (s.nodes.length, .pipe 0o600 []) ∧
      s₃.find r.down = .ok (s.nodes.length + 1, .pipe 0o600 []) ∧ s₃.Extends s ∧
      (∃ p q, s₃.names = s.names ++ [(p, s.nodes.length), (q, s.nodes.length + 1)]) ∧
      s₃.nodes = s.nodes ++ [.pipe 0o600 [], .pipe 0o600 []] ∧
      s₃.opened = s.opened ++ [some ⟨s.nodes.length + 1, true, false, 0⟩] ∧
      reader = s.opened.length := by
  obtain ⟨p, located, vacant, first, grown, names, nodes, opened⟩ := make_ok made rfl
  obtain ⟨q, located', vacant', second, grown', names', nodes', opened'⟩ := make_ok made' rfl
  have vacant₀ : s.number? q = none := by
    cases h : s.number? q with
    | none => rfl
    | some k =>
      rw [grown.numbers q k h] at vacant'
      cases vacant'
  have length : s₁.nodes.length = s.nodes.length + 1 := by
    rw [nodes, List.length_append, List.length_singleton]
  rw [length] at second names'
  obtain ⟨last, rfl, -⟩ := openFile_found reads second
  have there : s₂.nodes[s.nodes.length]? = some (.pipe 0o600 []) := by
    rw [nodes', nodes, List.getElem?_append_left (by rw [List.length_append]; exact Nat.lt_succ_self _),
      List.getElem?_concat_length]
  have there' : s₂.nodes[s.nodes.length + 1]? = some (.pipe 0o600 []) := by
    rw [nodes', ← length, List.getElem?_concat_length]
  refine ⟨find_of_vacant located vacant, find_of_vacant (grown.locate.mp located') vacant₀,
    ((extends_openNode _ _ _).trans grown').find first there fun h => h,
    (extends_openNode _ _ _).find second there' fun h => h,
    (extends_openNode _ _ _).trans (grown'.trans grown), ⟨p, q, ?_⟩, ?_, ?_, ?_⟩
  · show s₂.names = _
    rw [names', names, List.append_assoc]
    rfl
  · show s₂.nodes = _
    rw [nodes', nodes, List.append_assoc]
    rfl
  · show s₂.opened ++ _ = _
    rw [opened', opened]
  · rw [last, opened', opened]

theorem write_line (asks : s.openFile endpoint false true = .ok (ask, t))
    (found : s.find endpoint = .ok (n, .pipe mode content)) (line : Bytes) :
    (t.writeAll ask line).1 = .ok () ∧ (t.writeAll ask line).2.close ask =
      { s.setNode n (.pipe mode (content ++ line)) with opened := s.opened ++ [none] } := by
  obtain ⟨rfl, rfl, attended⟩ := openFile_found asks found
  exact close_writeAll (node_of_find found nofun) (attended rfl rfl rfl) line

theorem asked_of_steps (made : s.make r.up (.pipe 0o600 []) = .ok (up, s₁))
    (made' : s₁.make r.down (.pipe 0o600 []) = .ok (down, s₂))
    (reads : s₂.openFile r.down true false = .ok (reader, s₃))
    (asks : s₃.openFile endpoint false true = .ok (ask, s₄))
    (found : s.find endpoint = .ok (n, .pipe mode content)) :
    reader = s.opened.length ∧
      s.Asked r endpoint n mode content ((s₄.writeAll ask r.line).2.close ask) := by
  obtain ⟨vacant, vacant', first, second, grown, ⟨p, q, names⟩, nodes, opened, last⟩ :=
    make_pair made made' reads
  have there : s.nodes[n]? = some (.pipe mode content) := node_of_find found nofun
  have short : n < s.nodes.length := (List.getElem?_eq_some_iff.mp there).1
  have there₃ : s₃.nodes[n]? = some (.pipe mode content) := by
    rw [nodes, List.getElem?_append_left short, there]
  obtain ⟨-, after⟩ := write_line asks (grown.find found there₃ fun h => h) r.line
  have late := extends_write there₃ r.line (s₃.opened ++ [none])
  have kept {p : Path} {k : Nat} (h : s₃.find p = .ok (k, .pipe 0o600 [])) (other : n ≠ k) :
      (s₃.setNode n (.pipe mode (content ++ r.line))).nodes[k]? = some (.pipe 0o600 []) :=
    (List.getElem?_set_ne other).trans (node_of_find h nofun)
  rw [after]
  exact ⟨last,
    { vacant := ⟨vacant, vacant'⟩
      up := late.find first (kept first (Nat.ne_of_lt short)) fun h => h
      down := late.find second (kept second (Nat.ne_of_lt (Nat.lt_succ_of_lt short))) fun h => h
      endpoint := (late.trans grown).find found
        (List.getElem?_set_self (List.getElem?_eq_some_iff.mp there₃).1) nofun
      ways := late.trans grown
      names := ⟨p, q, names⟩
      nodes := by
        show s₃.nodes.set n _ = _
        rw [nodes, List.set_append_left _ _ short]
      opened := by
        show s₃.opened ++ [none] = _
        rw [opened, List.append_assoc]
        rfl }⟩

theorem Asked.opened? (h : s.Asked r endpoint n mode content t) {file : Nat} {f : OpenFile}
    (was : s.opened? file = some (f, .pipe mode content)) (here : f.node = n) :
    t.opened? file = some (f, .pipe mode (content ++ r.line)) := by
  subst here
  obtain ⟨f', opened, there⟩ := Option.bind_eq_some_iff.mp was
  obtain ⟨node, there, same⟩ := Option.bind_eq_some_iff.mp there
  obtain ⟨rfl, rfl⟩ := Prod.mk.inj (Option.some.inj same)
  obtain ⟨open', listed⟩ : ∃ o, s.opened[file]? = some o := by
    cases h : s.opened[file]? with
    | none =>
      rw [h] at opened
      cases opened
    | some o => exact ⟨o, rfl⟩
  have kept : t.opened[file]? = s.opened[file]? := by
    rw [h.opened, List.getElem?_append_left (List.getElem?_eq_some_iff.mp listed).1]
  have short := (List.getElem?_eq_some_iff.mp there).1
  have now : t.nodes[f'.node]? = some (.pipe mode (content ++ r.line)) := by
    rw [h.nodes, List.getElem?_append_left (by rwa [List.length_set]), List.getElem?_set_self short]
  rw [FileSystem.opened?, kept, opened]
  show (t.nodes[f'.node]? >>= fun node => some (f', node)) = _
  rw [now]
  rfl

/-- What can be made can still be made after something else was, elsewhere. -/
theorem make_after {q : Path} {other : FileNode} {found : Nat × FileSystem}
    (made : s.make p node = .ok (n, t)) (plain : node.isDirectory = false)
    (makes : s.make q other = .ok found)
    (apart : ∀ place, s.locate p = .ok place → s.locate q ≠ .ok place) :
    ∃ found, t.make q other = .ok found := by
  obtain ⟨place, located, -, -, grown, names, nodes, -⟩ := make_ok made plain
  obtain ⟨place', located', free, slash, changeable, -, -⟩ := make_eq_ok_iff.mp makes
  have elsewhere : place' ≠ place := fun same => apart place located (same ▸ located')
  have vacant : t.number? place' = s.number? place' := by
    rw [number?_of_names names, if_neg elsewhere, Option.or_none]
  refine ⟨_, make_eq_ok_iff.mpr ⟨place', grown.locate.mpr located', ?_, slash, ?_, rfl, rfl⟩⟩
  · rw [checkFree, vacant]
    exact free
  · unfold checkChange at changeable ⊢
    cases h : s.node? place'.dropLast with
    | none =>
      rw [h] at changeable
      cases changeable
    | some directory =>
      obtain ⟨k, number, there⟩ := Option.bind_eq_some_iff.mp h
      have short := (List.getElem?_eq_some_iff.mp there).1
      have kept : t.node? place'.dropLast = some directory := by
        rw [node?, grown.numbers _ k number, Option.bind_some, nodes, List.getElem?_append_left short,
          there]
      rwa [kept, ← h]

theorem steps_of_made {found found' : Nat × FileSystem}
    (made : s.make r.up (.pipe 0o600 []) = .ok found) (made' : s.make r.down (.pipe 0o600 []) = .ok found')
    (apart : ∀ place, s.locate r.up = .ok place → s.locate r.down ≠ .ok place)
    (there : s.find endpoint = .ok (n, .pipe mode content))
    (writable : (FileNode.pipe mode content).allows .write = true) (attended : s.hasReader n = true) :
    ∃ (s₁ s₂ s₃ s₄ : FileSystem) (up down reader ask : Nat),
      s.make r.up (.pipe 0o600 []) = .ok (up, s₁) ∧ s₁.make r.down (.pipe 0o600 []) = .ok (down, s₂) ∧
      s₂.openFile r.down true false = .ok (reader, s₃) ∧
      s₃.openFile endpoint false true = .ok (ask, s₄) ∧ (s₄.writeAll ask r.line).1 = .ok () := by
  obtain ⟨up, s₁⟩ := found
  obtain ⟨⟨down, s₂⟩, second⟩ := make_after made rfl made' apart
  obtain ⟨-, -, -, here, -, -, -, -⟩ := make_ok second rfl
  have reads : s₂.openFile r.down true false =
      .ok (s₂.opened.length, (s₂.openNode s₁.nodes.length true false).2) :=
    openFile_eq_ok_iff.mpr ⟨_, _, here, nofun, ⟨fun _ => by decide, nofun⟩, rfl, nofun, rfl⟩
  obtain ⟨-, -, -, -, grown, -, nodes, opened, -⟩ := make_pair made second reads
  generalize (s₂.openNode s₁.nodes.length true false).2 = s₃ at reads grown nodes opened
  have kept : s₃.nodes[n]? = some (.pipe mode content) := by
    have old := node_of_find there nofun
    rw [nodes, List.getElem?_append_left (List.getElem?_eq_some_iff.mp old).1, old]
  have heard : s₃.hasReader n = true := by
    rw [hasReader, opened, List.any_append, ← hasReader, attended, Bool.true_or]
  have asks : s₃.openFile endpoint false true =
      .ok (s₃.opened.length, (s₃.openNode n false true).2) :=
    openFile_eq_ok_iff.mpr ⟨_, _, grown.find there kept fun h => h, fun _ => rfl,
      ⟨nofun, fun _ => writable⟩, rfl, fun _ _ _ => heard, rfl⟩
  exact ⟨s₁, s₂, s₃, _, up, down, _, _, made, second, reads, asks,
    (write_line asks (grown.find there kept fun h => h) r.line).1⟩

end Asking

end FileSystem

end ModuleLink
