import Mathlib.Data.List.Basic
import ModuleLink.Proofs.AskedFiles
import ModuleLink.Proofs.BufferedRequests
import ModuleLink.Proofs.PlainTexts
import ModuleLink.Proofs.TextCharacters

/-! # The request that a client writes

A client makes its pipes one step below the directory, however that is spelled, and the line that
names them is short, ends in its only newline and is read as the same two names. -/
namespace ModuleLink

namespace Path

variable {directory name : Path} {c : Char}

/-- The steps between the slashes of a path. -/
def inner (p : Path) : List PathStep := (p.splitOn '/').filterMap piece

theorem walk_eq (p : Path) :
    p.walk = (if p.head? = some '/' then [.root] else []) ++ p.inner := by
  simp only [walk, inner]
  split <;> rfl

theorem inner_append_slash (front back : Path) :
    Path.inner (front ++ '/' :: back) = front.inner ++ back.inner := by
  rw [inner, List.splitOn_append_cons_self, List.filterMap_append]
  rfl

theorem inner_of_ordinary (ordinary : Ordinary name) : name.inner = [.entry name] := by
  have read : piece name = some (.entry name) := by
    unfold piece
    split
    · exact absurd rfl ordinary.some
    · exact absurd rfl ordinary.notHere
    · exact absurd rfl ordinary.notUp
    · rfl
  rw [inner, List.splitOn_eq_singleton ordinary.noSlash, List.filterMap_cons, read]
  rfl

/-- A name that is put behind a directory takes one step from there. -/
theorem walk_join (ordinary : Ordinary name) :
    (directory.join name).walk = directory.walk ++ [.entry name] := by
  have relative : name.head? ≠ some '/' := fun absolute =>
    ordinary.noSlash (List.mem_of_head? absolute)
  rw [join, if_neg relative]
  by_cases empty : directory = []
  · rw [if_pos (.inl empty), empty, List.nil_append, walk_eq, if_neg relative,
      inner_of_ordinary ordinary]
    rfl
  have first (back : Path) : (directory ++ back).head? = directory.head? :=
    List.head?_append_of_ne_nil _ empty
  by_cases closed : directory.getLast? = some '/'
  · obtain ⟨front, rfl⟩ := List.getLast?_eq_some_iff.mp closed
    have closing : Path.inner (front ++ ['/']) = Path.inner front := by
      rw [inner_append_slash]
      exact List.append_nil _
    rw [if_pos (.inr closed), walk_eq, walk_eq, first, closing, List.append_assoc front,
      List.singleton_append, inner_append_slash, inner_of_ordinary ordinary, List.append_assoc]
  · rw [if_neg (not_or.mpr ⟨empty, closed⟩), walk_eq, walk_eq, first, inner_append_slash,
      inner_of_ordinary ordinary, List.append_assoc]

theorem steps_of_walk {p : Path} (onward : p.walk = directory.walk ++ [.entry name]) :
    p.steps = directory.steps ++ [.entry name] := by
  unfold steps
  rw [onward]
  rcases directory.walk with _ | ⟨first, rest⟩
  · rfl
  · cases first <;> simp [List.filter_append]

theorem parent?_join (ordinary : Ordinary name) :
    (directory.join name).parent? = some directory.steps :=
  parent?_eq_some_iff.mpr ⟨.entry name, by simp, steps_of_walk (walk_join ordinary)⟩

theorem mem_join (h : c ∈ directory.join name) : c ∈ directory ∨ c = '/' ∨ c ∈ name := by
  unfold join at h
  split at h
  · exact .inr (.inr h)
  · split at h
    · exact (List.mem_append.mp h).imp_right .inr
    · exact (List.mem_append.mp h).imp_right List.mem_cons.mp

theorem getLast?_join (some : name ≠ []) : (directory.join name).getLast? = name.getLast? := by
  unfold join
  split
  · rfl
  · split
    · exact List.getLast?_append_of_ne_nil _ some
    · rw [List.getLast?_append_cons]
      exact List.getLast?_append_of_ne_nil ['/'] some

end Path

/-! The names of the pipes. -/

def pairName (port : UInt16) (process serial : Nat) (direction : String) : List Char :=
  Nat.toDigits 10 port.toNat ++ '.' :: Nat.toDigits 10 process ++ '.' :: Nat.toDigits 10 serial ++
    '.' :: direction.toList

section Pairs

variable {directory : Path} {port : UInt16} {process serial : Nat} {direction : String} {c : Char}

theorem pairPath_eq : pairPath directory port process serial direction =
    directory.join (pairName port process serial direction) := by
  have spelled : s!"{port}.{process}.{serial}.{direction}" =
      toString port ++ "." ++ toString process ++ "." ++ toString serial ++ "." ++ direction := rfl
  rw [pairPath, spelled]
  simp [pairName, toList_toString_port]

theorem mem_pairName (h : c ∈ pairName port process serial direction) :
    c.isDigit ∨ c = '.' ∨ c ∈ direction.toList := by
  simp only [pairName, List.mem_append, List.mem_cons] at h
  rcases h with ((digit | dot | digit) | dot | digit) | dot | h
  · exact .inl (isDigit_of_mem_toDigits digit)
  · exact .inr (.inl dot)
  · exact .inl (isDigit_of_mem_toDigits digit)
  · exact .inr (.inl dot)
  · exact .inl (isDigit_of_mem_toDigits digit)
  · exact .inr (.inl dot)
  · exact .inr (.inr h)

/-- The name of a pipe starts with a digit, so it is neither of the dots. -/
theorem pairName_ordinary (direct : '/' ∉ direction.toList) :
    Path.Ordinary (pairName port process serial direction) := by
  obtain ⟨d, ds, digits⟩ := List.exists_cons_of_ne_nil (Nat.toDigits_ne_nil (b := 10) (n := port.toNat))
  have digit : d.isDigit := isDigit_of_mem_toDigits (digits ▸ List.mem_cons_self)
  have notDot : d ≠ '.' := by
    rintro rfl
    exact absurd digit (by decide)
  obtain ⟨rest, starts⟩ : ∃ rest, pairName port process serial direction = d :: rest := by
    rw [pairName, digits]
    exact ⟨_, rfl⟩
  refine ⟨by simp [starts], by simp [starts, notDot], by simp [starts, notDot], fun slash => ?_⟩
  rcases mem_pairName slash with digit | dot | h
  · exact absurd digit (by decide)
  · exact absurd dot (by decide)
  · exact direct h

theorem parent?_pairPath (direct : '/' ∉ direction.toList) :
    (pairPath directory port process serial direction).parent? = some directory.steps := by
  rw [pairPath_eq]
  exact Path.parent?_join (pairName_ordinary direct)

/-- A character of a pipe's path that neither the directory nor the direction has is none that could
cut a request. -/
theorem notMem_pairPath (inDirectory : c ∉ directory) (inDirection : c ∉ direction.toList)
    (control : c.toNat < 32) : c ∉ pairPath directory port process serial direction := by
  intro h
  rw [pairPath_eq] at h
  rcases Path.mem_join h with h | rfl | h
  · exact inDirectory h
  · exact absurd control (by decide)
  · rcases mem_pairName h with digit | rfl | h
    · have := (toNat_of_isDigit digit).1
      omega
    · exact absurd control (by decide)
    · exact inDirection h

theorem getLast?_pairPath (some : direction.toList ≠ []) :
    (pairPath directory port process serial direction).getLast? = direction.toList.getLast? := by
  have name : pairName port process serial direction ≠ [] := by simp [pairName]
  rw [pairPath_eq, Path.getLast?_join name, pairName, List.getLast?_append_cons]
  exact List.getLast?_append_of_ne_nil ['.'] some

end Pairs

theorem newline_notMem_encode {c : Char} (h : c ≠ '\n') : newline ∉ String.utf8EncodeChar c := by
  have other : c.val.toNat ≠ 10 := fun same => h (Char.toNat_inj.mp same)
  have byte {n : Nat} (small : n < 256) (ne : n ≠ 10) : newline ≠ UInt8.ofNat n := fun same => by
    have := congrArg UInt8.toNat same
    rw [toNat_ofNat_byte small] at this
    exact ne this.symm
  unfold String.utf8EncodeChar
  dsimp only
  split
  · exact List.not_mem_cons_of_ne_of_not_mem (byte (by omega) other) List.not_mem_nil
  · split
    · simp only [List.mem_cons, List.not_mem_nil, or_false, not_or]
      exact ⟨byte (by omega) (by omega), byte (by omega) (by omega)⟩
    · split
      · simp only [List.mem_cons, List.not_mem_nil, or_false, not_or]
        exact ⟨byte (by omega) (by omega), byte (by omega) (by omega), byte (by omega) (by omega)⟩
      · simp only [List.mem_cons, List.not_mem_nil, or_false, not_or]
        exact ⟨byte (by omega) (by omega), byte (by omega) (by omega), byte (by omega) (by omega),
          byte (by omega) (by omega)⟩

namespace PipeRequest

variable {r : PipeRequest} {directory : Path}

theorem line_eq (r : PipeRequest) :
    r.line = textBytes r.up.text ++ 9 :: textBytes r.down.text ++ [newline] := by
  simp only [line, textBytes_eq, Path.text, String.toList_ofList, List.flatMap_append,
    List.flatMap_cons]
  rfl

/-- Two paths without newlines, each short enough for the address of a socket, make a request. -/
theorem line_isRequest (up : '\n' ∉ r.up) (down : '\n' ∉ r.down) (short : r.up.checkSize = .ok ())
    (short' : r.down.checkSize = .ok ()) : IsRequest r.line := by
  have clean {p : Path} (h : '\n' ∉ p) : newline ∉ textBytes p.text := by
    rw [textBytes_eq, Path.text, String.toList_ofList, List.mem_flatMap]
    rintro ⟨c, hc, found⟩
    exact newline_notMem_encode (fun same => h (same ▸ hc)) found
  have length {p : Path} (h : p.checkSize = .ok ()) : (textBytes p.text).length < Path.sizeLimit := by
    refine Nat.lt_of_not_le fun long => ?_
    rw [Path.checkSize, if_pos (show Path.sizeLimit ≤ p.size from long)] at h
    cases h
  refine ⟨⟨_, line_eq r, fun found => ?_⟩, ?_⟩
  · rcases List.mem_append.mp found with found | found
    · exact clean up found
    · exact clean down ((List.mem_cons.mp found).resolve_left (by decide))
  · have := length short
    have := length short'
    rw [line_eq]
    simp only [List.length_append, List.length_cons, List.length_nil]
    simp only [Path.sizeLimit, requestLimit] at *
    omega

/-- A line is read as the request that it was made from, if no tab is in the first path and no white
space at the end of the second one. -/
theorem parse_line (whole : '\t' ∉ r.up) (named : r.down ≠ [])
    (last : ∀ c, r.down.getLast? = some c → isBlank c = false)
    (up : r.up.parent? = some directory.steps) (down : r.down.parent? = some directory.steps) :
    parse directory r.line = .ok r := by
  refine parse_eq_ok_iff.mpr ⟨⟨r.up ++ '\t' :: r.down ++ ['\n'], ?_, ?_⟩, whole, up, down⟩
  · rw [characters?_eq_some_iff, line, textBytes_eq, String.toList_ofList]
  · refine trimEnd_append (by simp; decide) fun c hc => last c ?_
    rw [List.getLast?_append_cons] at hc
    rwa [← List.getLast?_append_of_ne_nil ['\t'] named]

end PipeRequest

namespace Machine

/-- The pipes that the next client on this machine names. -/
def nextPair (m : Machine) (port : UInt16) (s : EndpointSettings) : PipeRequest where
  up := pairPath s.directory port m.process m.pairs "up"
  down := pairPath s.directory port m.process m.pairs "down"

theorem nextPair_up (m : Machine) (port : UInt16) (s : EndpointSettings) :
    (m.nextPair port s).up = pairPath s.directory port m.process m.pairs "up" := by
  rw [nextPair]

theorem nextPair_down (m : Machine) (port : UInt16) (s : EndpointSettings) :
    (m.nextPair port s).down = pairPath s.directory port m.process m.pairs "down" := by
  rw [nextPair]

variable {m n : Machine} {port : UInt16} {s : EndpointSettings}

theorem run_bind_of_ok {α β : Type} {a : MachineAct α} {f : α → MachineAct β} {v : α}
    (h : a.run m = (.ok v, n)) : (a >>= f).run m = (f v).run n := by
  rw [run_bind, h]

theorem run_require_iff {r : Except TransportError Unit} :
    (require r).run m = (.ok (), n) ↔ r = .ok () ∧ n = m := by
  cases r with
  | error e => exact ⟨nofun, fun h => nomatch h.1⟩
  | ok => exact ⟨fun h => ⟨rfl, (Prod.mk.inj h).2.symm⟩, fun h => h.2 ▸ rfl⟩

theorem run_orUndo_iff {α : Type} {undo : FileSystem → FileSystem} {a : MachineAct α} {v : α} :
    (orUndo undo a).run m = (.ok v, n) ↔ a.run m = (.ok v, n) := by
  rw [orUndo, run_tryCatch]
  generalize a.run m = out
  obtain ⟨_ | _, _⟩ := out
  · constructor <;> intro h <;> cases h
  · rfl

theorem run_onFiles_iff {α : Type} {wrap : SystemError → TransportError}
    {f : FileSystem → Except SystemError (α × FileSystem)} {v : α} :
    (onFiles wrap f).run m = (.ok v, n) ↔ ∃ files, f m.files = .ok (v, files) ∧ n = { m with files } := by
  have got : (get : MachineAct Machine).run m = (.ok m, m) := rfl
  rw [onFiles, run_bind_of_ok got]
  cases f m.files with
  | error e =>
    constructor
    · intro h
      cases h
    · rintro ⟨files, h, -⟩
      cases h
  | ok found =>
    constructor
    · intro h
      cases h
      exact ⟨_, rfl, rfl⟩
    · rintro ⟨files, h, rfl⟩
      cases h
      rfl

theorem run_discard_iff {α : Type} {a : MachineAct α} :
    (discard a).run m = (.ok ⟨⟩, n) ↔ ∃ v, a.run m = (.ok v, n) := by
  have ran : (discard a).run m = (a >>= fun _ => pure ⟨⟩).run m := rfl
  rw [ran]
  constructor
  · intro h
    obtain ⟨v, k, first, same⟩ := run_bind_ok h
    cases same
    exact ⟨v, first⟩
  · rintro ⟨v, h⟩
    exact run_bind_of_ok h

/-- A client gets to wait for an answer exactly if the paths of the next pair of pipes are short
enough, both can be made and one of them opened, and the line for them can be written. -/
theorem start_iff {asking : Asking} : (Asking.start port s).run m = (.ok asking, n) ↔
    (m.nextPair port s).up.checkSize = .ok () ∧ (m.nextPair port s).down.checkSize = .ok () ∧
      ∃ (s₁ s₂ s₃ s₄ : FileSystem) (up down ask : Nat),
        m.files.makePipe (m.nextPair port s).up 0o600 = .ok (up, s₁) ∧
        s₁.makePipe (m.nextPair port s).down 0o600 = .ok (down, s₂) ∧
        s₂.openFile (m.nextPair port s).down true false = .ok (asking.reader, s₃) ∧
        s₃.openFile (requestPipePath s.directory port) false true = .ok (ask, s₄) ∧
        (s₄.writeAll ask (m.nextPair port s).line).1 = .ok () ∧
        asking = ⟨requestPipePath s.directory port, m.nextPair port s, asking.reader⟩ ∧
        n = { m with
          pairs := m.pairs + 1
          files := (s₄.writeAll ask (m.nextPair port s).line).2.close ask } := by
  rw [nextPair]
  dsimp only
  constructor
  · intro asked
    obtain ⟨_, _, got, asked⟩ := run_bind_ok asked
    cases got
    obtain ⟨_, _, counted, asked⟩ := run_bind_ok asked
    cases counted
    obtain ⟨_, _, checked, asked⟩ := run_bind_ok asked
    obtain ⟨short, rfl⟩ := run_require_iff.mp checked
    obtain ⟨_, _, checked', asked⟩ := run_bind_ok asked
    obtain ⟨short', rfl⟩ := run_require_iff.mp checked'
    obtain ⟨_, _, making, asked⟩ := run_bind_ok asked
    obtain ⟨up, making⟩ := run_discard_iff.mp making
    obtain ⟨s₁, made, rfl⟩ := run_onFiles_iff.mp making
    obtain ⟨_, _, making', asked⟩ := run_bind_ok (run_orUndo_iff.mp asked)
    obtain ⟨down, making'⟩ := run_discard_iff.mp making'
    obtain ⟨s₂, made', rfl⟩ := run_onFiles_iff.mp making'
    obtain ⟨reader, _, reading, asked⟩ := run_bind_ok asked
    obtain ⟨s₃, reads, rfl⟩ := run_onFiles_iff.mp reading
    obtain ⟨ask, _, opening, asked⟩ := run_bind_ok (run_orUndo_iff.mp asked)
    obtain ⟨s₄, asks, rfl⟩ := run_onFiles_iff.mp opening
    obtain ⟨_, _, got, asked⟩ := run_bind_ok asked
    cases got
    obtain ⟨_, _, closed, asked⟩ := run_bind_ok asked
    cases closed
    obtain ⟨_, _, wrote, asked⟩ := run_bind_ok asked
    obtain ⟨written, rfl⟩ := run_require_iff.mp wrote
    cases asked
    exact ⟨short, short', s₁, s₂, s₃, s₄, up, down, ask, made, made', reads, asks, written, rfl, rfl⟩
  · rintro ⟨short, short', s₁, s₂, s₃, s₄, up, down, ask, made, made', reads, asks, written, same, rfl⟩
    have got (k : Machine) : (get : MachineAct Machine).run k = (.ok k, k) := rfl
    have changed (k : Machine) (f : Machine → Machine) :
        (modify f : MachineAct PUnit).run k = (.ok ⟨⟩, f k) := rfl
    have counted : (set { m with pairs := m.pairs + 1 } : MachineAct PUnit).run m =
        (.ok ⟨⟩, { m with pairs := m.pairs + 1 }) := rfl
    rw [Asking.start, run_bind_of_ok (got m), run_bind_of_ok counted,
      run_bind_of_ok (run_require_iff.mpr ⟨short, rfl⟩),
      run_bind_of_ok (run_require_iff.mpr ⟨short', rfl⟩),
      run_bind_of_ok (run_discard_iff.mpr ⟨up, run_onFiles_iff.mpr ⟨s₁, made, rfl⟩⟩), run_orUndo_iff,
      run_bind_of_ok (run_discard_iff.mpr ⟨down, run_onFiles_iff.mpr ⟨s₂, made', rfl⟩⟩),
      run_bind_of_ok (run_onFiles_iff.mpr ⟨s₃, reads, rfl⟩), run_orUndo_iff,
      run_bind_of_ok (run_onFiles_iff.mpr ⟨s₄, asks, rfl⟩), run_bind_of_ok (got _)]
    dsimp only
    rw [run_bind_of_ok (changed _ _), run_bind_of_ok (run_require_iff.mpr ⟨written, rfl⟩), same]
    rfl

theorem makePipe_iff {files : FileSystem} {path : Path} {mode : Nat} {made : Nat × FileSystem} :
    files.makePipe path mode = .ok made ↔ files.make path (.pipe mode []) = .ok made := by
  unfold FileSystem.makePipe
  split
  · rename_i k null
    refine ⟨nofun, fun h => ?_⟩
    obtain ⟨place, located, -⟩ := FileSystem.make_eq_ok_iff.mp h
    obtain ⟨_, legible, -⟩ := ok_of_bind located
    rw [FileSystem.checkText, null] at legible
    cases legible
  · rfl

/-- Two pipes of a pair lie in one directory under two names. -/
theorem locate_pair_ne {files : FileSystem} (place : Place)
    (h : files.locate (m.nextPair port s).up = .ok place) :
    files.locate (m.nextPair port s).down ≠ .ok place := by
  have ends {direction : String} (direct : '/' ∉ direction.toList)
      (h : files.locate (pairPath s.directory port m.process m.pairs direction) = .ok place) :
      place.getLast? = some (pairName port m.process m.pairs direction) := by
    have reached := FileSystem.reach_of_locate h
    rw [pairPath_eq, Path.walk_join (pairName_ordinary direct), FileSystem.reach_append] at reached
    obtain ⟨home, -, step⟩ := ok_of_bind reached
    rw [FileSystem.follow_ok step]
    exact List.getLast?_concat
  rw [nextPair_up] at h
  rw [nextPair_down]
  intro h'
  have same := (ends (by decide) h).symm.trans (ends (by decide) h')
  simp [pairName] at same

theorem nextRequest_at_once {line : Bytes} (request : IsRequest line) {pipe : Source}
    (quiet : pipe.turns = []) (ended : pipe.exhaustion = .ended) (unread : pipe.unread = line) :
    (nextRequest [] pipe).result = .ok (some line) ∧ (nextRequest [] pipe).pending = [] := by
  obtain ⟨isLine, short⟩ := request
  obtain ⟨b, bs, some⟩ := List.exists_cons_of_ne_nil isLine.ne_nil
  have all : pipe.read (.plain requestLimit) = (.bytes (b :: bs),
      { pipe with unread := [], calls := pipe.calls ++ [.plain requestLimit] }) := by
    rw [← some]
    simp [Source.read, Source.hand, quiet, ended, Call.room, unread, List.take_of_length_le short,
      List.drop_eq_nil_iff.mpr short]
  have next : nextRequest [] pipe = nextRequest (b :: bs)
      { pipe with unread := [], calls := pipe.calls ++ [.plain requestLimit] } := by
    fun_cases nextRequest [] pipe
    case case1 line rest h => cases h
    case case2 _ t hr => cases all.symm.trans hr
    case case3 _ b' bs' t hr longer =>
      obtain ⟨same, rfl⟩ := Prod.mk.inj (all.symm.trans hr)
      obtain ⟨rfl, rfl⟩ := List.cons.inj (ReadAnswer.bytes.inj same)
      have kept : ¬ requestLimit < longer.length := by
        rw [some] at short
        exact Nat.not_lt.mpr short
      rw [if_neg kept]
      rfl
    case case4 _ cause t hr _ => cases all.symm.trans hr
    case case5 _ cause t hr _ _ => cases all.symm.trans hr
    case case6 _ cause t hr _ _ => cases all.symm.trans hr
  have line_eq := nextRequest_of_isLine isLine []
  rw [List.append_nil, some] at line_eq
  rw [next, line_eq, some]
  exact ⟨rfl, rfl⟩

theorem takeRequest_line {e : PipeEndpoint} {line : Bytes} {r : PipeRequest} (request : IsRequest line)
    (unread : (m.files.source e.file).unread = line) (fresh : e.pending = [])
    (read : PipeRequest.parse e.directory line = .ok r) :
    ((e.takeRequest []).run m).1 = (.ok (some r), e) := by
  have quiet : (e.unreadSource [] m.files).turns = [] := rfl
  obtain ⟨result, pending⟩ := nextRequest_at_once request quiet rfl unread
  show (e.request (m.taken e []).result, { e with pending := (m.taken e []).pending }) = _
  rw [Machine.taken, fresh, result, pending]
  show ((do return some (← PipeRequest.parse e.directory line)), { e with pending := [] }) = _
  rw [read, ← fresh]
  rfl

theorem notMem_nextPair {c : Char} (inside : c ∉ s.directory) (control : c.toNat < 32)
    (notUp : c ∉ "up".toList) (notDown : c ∉ "down".toList) :
    c ∉ (m.nextPair port s).up ∧ c ∉ (m.nextPair port s).down := by
  rw [nextPair_up, nextPair_down]
  exact ⟨notMem_pairPath inside notUp control, notMem_pairPath inside notDown control⟩

theorem nextPair_isRequest (noNewline : '\n' ∉ s.directory)
    (short : (m.nextPair port s).up.checkSize = .ok ())
    (short' : (m.nextPair port s).down.checkSize = .ok ()) : IsRequest (m.nextPair port s).line := by
  obtain ⟨up, down⟩ := notMem_nextPair noNewline (by decide) (by decide) (by decide)
  exact PipeRequest.line_isRequest up down short short'

/-- Whoever listens in the same directory reads the two paths off the line. -/
theorem parse_nextPair (noTab : '\t' ∉ s.directory) {directory : Path}
    (same : directory.steps = s.directory.steps) :
    PipeRequest.parse directory (m.nextPair port s).line = .ok (m.nextPair port s) := by
  have last : (m.nextPair port s).down.getLast? = some 'n' := by
    rw [nextPair_down, getLast?_pairPath (by decide)]
    decide
  obtain ⟨whole, -⟩ := @notMem_nextPair m port s _ noTab (by decide) (by decide) (by decide)
  refine PipeRequest.parse_line whole (fun none => ?_) (fun c hc => ?_) ?_ ?_
  · rw [none] at last
    cases last
  · obtain rfl := Option.some.inj (last.symm.trans hc)
    decide
  · rw [nextPair_up, same]
    exact parent?_pairPath (by decide)
  · rw [nextPair_down, same]
    exact parent?_pairPath (by decide)

/-- The line for a client's next pair of pipes, if their paths are short enough, is a request: it is
short and ends in its only newline, and whoever listens in the same directory reads it as the same two
paths, however each of them spells the directory. A client that may write to the pipe on which somebody
listens, and may make its own, does so: both pipes are there then, the line is at the end of the
listener's pipe, and a listener who has nothing else to read takes the request. -/
theorem nextPair_understood (noTab : '\t' ∉ s.directory) (noNewline : '\n' ∉ s.directory)
    (short : (m.nextPair port s).up.checkSize = .ok ())
    (short' : (m.nextPair port s).down.checkSize = .ok ()) :
    let r := m.nextPair port s
    let endpoint := requestPipePath s.directory port
    IsRequest r.line ∧
    (∀ directory : Path, directory.steps = s.directory.steps →
      PipeRequest.parse directory r.line = .ok r) ∧
    (∀ asking n, (Asking.start port s).run m = (.ok asking, n) →
      asking = ⟨endpoint, r, asking.reader⟩ ∧ n = { m with pairs := m.pairs + 1, files := n.files }) ∧
    ∀ a mode content, m.files.find endpoint = .ok (a, .pipe mode content) →
      ((FileNode.pipe mode content).allows .write = true → m.files.hasReader a = true →
        (∃ made, m.files.make r.up (.pipe 0o600 []) = .ok made) →
        (∃ made, m.files.make r.down (.pipe 0o600 []) = .ok made) →
        ∃ asking n, (Asking.start port s).run m = (.ok asking, n)) ∧
      ∀ asking n, (Asking.start port s).run m = (.ok asking, n) →
        asking.reader = m.files.opened.length ∧
        m.files.Asked r endpoint a mode content n.files ∧
        ∀ (e : PipeEndpoint) (f : OpenFile), e.directory.steps = s.directory.steps →
          m.files.opened? e.file = some (f, .pipe mode content) → f.node = a →
          n.files.opened? e.file = some (f, .pipe mode (content ++ r.line)) ∧
            (e.pending = [] → content = [] → ((e.takeRequest []).run n).1 = (.ok (some r), e)) := by
  intro r endpoint
  have request : IsRequest r.line := nextPair_isRequest noNewline short short'
  refine ⟨request, fun _ same => parse_nextPair noTab same, fun asking n asked => ?_,
    fun a mode content found =>
      ⟨fun writable attended ⟨_, made⟩ ⟨_, made'⟩ => ?_, fun asking n asked => ?_⟩⟩
  · obtain ⟨-, -, _, _, _, _, _, _, _, -, -, -, -, -, same, rfl⟩ := start_iff.mp asked
    exact ⟨same, rfl⟩
  · obtain ⟨s₁, s₂, s₃, s₄, up, down, reader, ask, first, second, reads, asks, wrote⟩ :=
      FileSystem.steps_of_made made made' locate_pair_ne found writable attended
    exact ⟨⟨endpoint, r, reader⟩, _, start_iff.mpr ⟨short, short', s₁, s₂, s₃, s₄, up, down, ask,
      makePipe_iff.mpr first, makePipe_iff.mpr second, reads, asks, wrote, rfl, rfl⟩⟩
  · obtain ⟨-, -, s₁, s₂, s₃, s₄, up, down, ask, first, second, reads, asks, -, -, rfl⟩ :=
      start_iff.mp asked
    obtain ⟨reader, asked⟩ := FileSystem.asked_of_steps (makePipe_iff.mp first)
      (makePipe_iff.mp second) reads asks found
    refine ⟨reader, asked, fun e f same opened here => ?_⟩
    have now := asked.opened? opened here
    refine ⟨now, fun fresh empty => takeRequest_line request ?_ fresh (parse_nextPair noTab same)⟩
    rw [empty] at now
    simp only [FileSystem.source, now]
    rfl

def attended : Machine where
  name := "here"
  files :=
    { names := [([], 0), (["d".toList], 1), (["d".toList, "77.fifo".toList], 2)]
      nodes := [.directory 0o755, .directory 0o777, .pipe 0o622 []]
      opened := [some ⟨2, true, true, 0⟩] }
  process := 12
  pairs := 3

/-- A client spells the directory with a dot and with slashes that the listener leaves out. The listener
has nothing else to read, and takes the request. -/
theorem nextPair_understood_twoSpellings :
    let s : EndpointSettings := { directory := "/./d//".toList }
    let r := attended.nextPair 77 s
    let e : PipeEndpoint := ⟨"/d/77.fifo".toList, "/d".toList, 0, .ofSeconds 5, [], none⟩
    r.up = "/./d//77.12.3.up".toList ∧ IsRequest r.line ∧
      PipeRequest.parse "/d".toList r.line = .ok r ∧
      ∃ asking n, (Asking.start 77 s).run attended = (.ok asking, n) ∧ asking.request = r ∧
        n.files.find r.up = .ok (3, .pipe 0o600 []) ∧ n.files.find r.down = .ok (4, .pipe 0o600 []) ∧
        n.files.opened? asking.reader = some (⟨4, true, false, 0⟩, .pipe 0o600 []) ∧
        n.files.find "/./d//77.fifo".toList = .ok (2, .pipe 0o622 r.line) ∧
        ((e.takeRequest []).run n).1 = (.ok (some r), e) := by
  intro s r e
  have up : r.up = "/./d//77.12.3.up".toList := by decide +kernel
  have short : r.up.checkSize = .ok () := by decide +kernel
  have short' : r.down.checkSize = .ok () := by decide +kernel
  have same : Path.steps "/d".toList = s.directory.steps := by decide +kernel
  have found : attended.files.find (requestPipePath s.directory 77) = .ok (2, .pipe 0o622 []) := by
    decide +kernel
  have made : (attended.files.make r.up (.pipe 0o600 [])).isOk = true := by decide +kernel
  have made' : (attended.files.make r.down (.pipe 0o600 [])).isOk = true := by decide +kernel
  have listens : attended.files.opened? e.file = some (⟨2, true, true, 0⟩, .pipe 0o622 []) := by
    decide +kernel
  obtain ⟨request, reads, asks, onPipe⟩ :=
    @nextPair_understood attended 77 s (by decide) (by decide) short short'
  obtain ⟨succeeds, leaves⟩ := onPipe 2 _ _ found
  have given {x : Except SystemError (Nat × FileSystem)} (h : x.isOk = true) : ∃ v, x = .ok v := by
    cases x with
    | error e => cases h
    | ok v => exact ⟨v, rfl⟩
  obtain ⟨asking, n, asked⟩ := succeeds (by decide) (by decide +kernel) (given made) (given made')
  obtain ⟨reader, files, heard⟩ := leaves asking n asked
  obtain ⟨-, takes⟩ := heard e _ same listens rfl
  have reading : n.files.opened? asking.reader = some (⟨4, true, false, 0⟩, .pipe 0o600 []) := by
    simp only [FileSystem.opened?, files.opened, files.nodes, reader]
    rfl
  have pipe : requestPipePath s.directory 77 = "/./d//77.fifo".toList := by decide +kernel
  exact ⟨up, request, reads _ same, asking, n, asked, by rw [(asks asking n asked).1], files.up,
    files.down, reading, pipe ▸ files.endpoint, takes rfl rfl⟩

end Machine

end ModuleLink
