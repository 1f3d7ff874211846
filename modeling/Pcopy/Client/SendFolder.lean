import Pcopy.Client.SendFile

/-!
# `Client::send_folder`

The client walks a folder and calls `send_file` for every entry that is not a directory.
Nothing in the loop catches a panic, so one entry that `send_file` cannot deal with ends the
whole walk.

`WalkDir` is code outside the repository.  A walk is the list of its results in the order in
which they come, whatever tree they come from; it yields a path at most once, and a link as
an entry that is not a directory.  Opening an entry follows links: a path can fail to open, it
can open as a file, and it can open as something whose reads fail where its bytes end.  A
directory is of the last kind, with no bytes at all.

* `sendEach_cases` — how far the loop comes;
* `complete_iff` — when every readable file of the walk reaches the server.
-/

namespace Pcopy.Client

open Pcopy.Lib Pcopy.Path Pcopy.Server

/-- What `File::open` gives for a path: the length is that of `metadata`. -/
inductive Opened where
  | failed : IoError → Opened
  | file : ℕ → SegStream UInt8 → Opened
  | broken : ℕ → SegStream UInt8 → IoError → Opened

/-- `walkdir::DirEntry`. -/
structure DirEntry where
  path : PathBytes
  isDir : Bool
  opened : Opened

/-- The results of one walk. -/
structure Walk where
  results : List (Except IoError DirEntry)
  nodup : ((results.filterMap Except.toOption).map DirEntry.path).Nodup

/-- The entries that `send_folder` keeps: `filter_map(Result::ok)`, and no directories. -/
def Walk.entries (walk : Walk) : List DirEntry :=
  (walk.results.filterMap Except.toOption).filter fun e => !e.isDir

/-- A connection to the server: the path it is for, and the bytes written to it. -/
structure Connection where
  path : PathBytes
  wire : List UInt8
  deriving DecidableEq, Repr

/-- The panic of an `unwrap` of an error. -/
def unwrapMessage (e : IoError) : String :=
  "called `Result::unwrap()` on an `Err` value: " ++ e.message

/-- `File::read` of a file whose reads fail where its bytes end. -/
def readBroken (e : IoError) : FileRead := fun room s =>
  if s.file.elems = [] then (.error (.panic (unwrapMessage e)), s) else readFile room s

/-- `Client::send_file`: how the call ends, and what it has written to its connection. -/
def sendPath (host : Host) (e : DirEntry) : Except (Fault IoError) Unit × List UInt8 :=
  match e.opened with
  | .failed err => (.error (.panic (unwrapMessage err)), [])
  | .file length content =>
    let r := sendFile host e.path ⟨content, length, []⟩
    (r.1, r.2.wire)
  | .broken length content err =>
    let r := sendOpened (readBroken err) host e.path ⟨content, length, []⟩
    (r.1, r.2.wire)

/-- The connection that `send_file` opens for an entry. -/
def connection (host : Host) (e : DirEntry) : Connection := ⟨e.path, (sendPath host e).2⟩

/-- A turn of the loop: the connection is opened before anything can fail. -/
def sendEntry (host : Host) (e : DirEntry) : Exec IoError (List Connection) Unit := fun conns =>
  ((sendPath host e).1, conns ++ [connection host e])

/-- The loop of `send_folder`. -/
def sendEach (host : Host) : List DirEntry → Exec IoError (List Connection) Unit
  | [] => pure ()
  | e :: entries => do
    sendEntry host e
    sendEach host entries

/-- `Client::send_folder`. -/
def sendFolder (host : Host) (walk : Walk) : Exec IoError (List Connection) Unit :=
  sendEach host walk.entries

/-! ### One entry -/

/-- What opens, and what `metadata` and the reads say of it, let `send_file` return. -/
def Opened.Returns (opened : Opened) (path : PathBytes) : Prop :=
  match opened with
  | .failed _ => False
  | .file length _ => length ≤ 4294967295 → path.length ≤ 1013
  | .broken length _ _ => 4294967295 < length

/-- `send_file` deals with the entry: the path opens, its length fits into two bytes, and the
file is too long for the frame, or else its header fits into the buffer and its reads do not
fail. -/
def DirEntry.Harmless (e : DirEntry) : Prop :=
  e.path.length ≤ 65535 ∧ e.opened.Returns e.path

/-- The sending loop comes to the read that fails. -/
theorem sendLoopFuel_broken (err : IoError) (fuel : ℕ) :
    ∀ (buf : List UInt8) (hasher : Hasher) (s : ClientState), buf.length = 1024 →
      s.file.elems.length < fuel →
      ∃ s', sendLoopFuel (readBroken err) fuel buf hasher s
        = (.error (.panic (unwrapMessage err)), s') := by
  induction fuel with
  | zero => intro buf hasher s _ hfuel; omega
  | succ fuel ih =>
      intro buf hasher s hbuf hfuel
      by_cases hend : s.file.elems = []
      · have hread : readBroken err buf.length s = (.error (.panic (unwrapMessage err)), s) :=
          if_pos hend
        exact ⟨s, by rw [sendLoopFuel, Exec.bind_fault hread]⟩
      · have hread : readBroken err buf.length s = readFile buf.length s := if_neg hend
        rw [readFile_run] at hread
        have hnil : (s.file.read buf.length).1 ≠ [] := by
          intro h
          rcases (s.file.read_eq_nil_iff _).mp h with h0 | h0
          · omega
          · exact hend h0
        have hlt := s.file.read_elems_lt _ hnil
        have hle := s.file.read_length_le buf.length
        rw [sendLoopFuel, Exec.bind_ok hread,
          if_neg (by rw [List.length_eq_zero_iff]; exact hnil), writeStream, Exec.modify_bind]
        refine ih _ _ _ ?_ ?_
        · rw [overwrite_length _ (by omega), hbuf]
        · show (s.file.read buf.length).2.elems.length < fuel
          omega

/-- Whatever the header is, the reads are not survived. -/
theorem sendData_broken (err : IoError) (host : Host) {fields : List UInt8}
    (hfits : fields.length ≤ 1024) (s : ClientState) :
    ∃ s', sendData (readBroken err) host fields s
      = (.error (.panic (unwrapMessage err)), s') := by
  rw [sendData]
  dsimp only
  rw [if_pos (by rw [resize_length]; exact hfits), resize_length]
  by_cases hend : s.file.elems = []
  · have hread : readBroken err (1024 - fields.length) s
        = (.error (.panic (unwrapMessage err)), s) := if_pos hend
    exact ⟨s, Exec.bind_fault hread⟩
  · have hread : readBroken err (1024 - fields.length) s = readFile (1024 - fields.length) s :=
      if_neg hend
    rw [readFile_run] at hread
    have hle := s.file.read_length_le (1024 - fields.length)
    obtain ⟨s', hloop⟩ := sendLoopFuel_broken err _
      (overwrite (resize fields 1024) fields.length (s.file.read (1024 - fields.length)).1)
      (Hasher.new.update (window
        (overwrite (resize fields 1024) fields.length (s.file.read (1024 - fields.length)).1)
        fields.length (fields.length + (s.file.read (1024 - fields.length)).1.length)))
      { s with
        file := (s.file.read (1024 - fields.length)).2
        wire := s.wire ++ window
          (overwrite (resize fields 1024) fields.length (s.file.read (1024 - fields.length)).1)
          0 (fields.length + (s.file.read (1024 - fields.length)).1.length) }
      (by rw [overwrite_length _ (by rw [resize_length]; omega), resize_length])
      (Nat.lt_succ_self _)
    refine ⟨s', ?_⟩
    rw [Exec.bind_ok hread, writeStream, Exec.modify_bind]
    exact Exec.bind_fault hloop

/-- A path of 65536 bytes or more does not get past its length field. -/
theorem sendOpened_longPath (read : FileRead) (host : Host) {path : PathBytes}
    (hlong : 2 ^ 16 ≤ path.length) (s : ClientState) :
    ∃ msg, sendOpened read host path s = (.error (.panic msg), s) := by
  have hlength : getLengthAsU16Bytes path s = (.error (.panic
      "called `Result::unwrap()` on an `Err` value: TryFromIntError(())"), s) := by
    rw [getLengthAsU16Bytes, if_neg (by omega)]
    rfl
  exact ⟨_, by rw [sendOpened, Exec.bind_fault hlength]⟩

/-- **One call.**  `send_file` returns for the harmless entries and panics for the others. -/
theorem sendPath_cases (host : Host) (e : DirEntry) :
    e.Harmless ∧ (sendPath host e).1 = .ok () ∨
      ¬ e.Harmless ∧ ∃ msg, (sendPath host e).1 = .error (.panic msg) := by
  rw [DirEntry.Harmless, sendPath]
  cases hopened : e.opened with
  | failed err => exact Or.inr ⟨fun h => h.2, unwrapMessage err, rfl⟩
  | file length content =>
      dsimp only [Opened.Returns]
      by_cases hpath : e.path.length ≤ 65535
      · by_cases hlen : length ≤ 4294967295
        · by_cases hfits : e.path.length ≤ 1013
          · left
            have hheader : (header host e.path length).length ≤ 1024 := by
              rw [header_length]
              omega
            obtain ⟨file, hrun⟩ := sendData_run host hheader ⟨content, length, []⟩
            rw [sendFile, sendOpened_short readFile host (by omega), if_pos (by dsimp only; omega),
              hrun]
            exact ⟨⟨hpath, fun _ => hfits⟩, rfl⟩
          · right
            rw [sendFile, sendOpened_overlong readFile host (by omega) (by dsimp only; omega)
              (by omega)]
            exact ⟨fun h => hfits (h.2 hlen), _, rfl⟩
        · left
          rw [sendFile, sendOpened_short readFile host (by omega), if_neg (by dsimp only; omega)]
          exact ⟨⟨hpath, fun h => absurd h hlen⟩, rfl⟩
      · right
        have hlong : 2 ^ 16 ≤ e.path.length := by omega
        obtain ⟨msg, hrun⟩ := sendOpened_longPath readFile host hlong ⟨content, length, []⟩
        rw [sendFile, hrun]
        exact ⟨fun h => hpath h.1, msg, rfl⟩
  | broken length content err =>
      dsimp only [Opened.Returns]
      by_cases hpath : e.path.length ≤ 65535
      · by_cases hlen : length ≤ 4294967295
        · right
          refine ⟨fun h => absurd h.2 (by omega), ?_⟩
          by_cases hfits : e.path.length ≤ 1013
          · have hheader : (header host e.path length).length ≤ 1024 := by
              rw [header_length]
              omega
            obtain ⟨s', hrun⟩ := sendData_broken err host hheader ⟨content, length, []⟩
            rw [sendOpened_short _ host (by omega), if_pos (by dsimp only; omega), hrun]
            exact ⟨_, rfl⟩
          · rw [sendOpened_overlong _ host (by omega) (by dsimp only; omega) (by omega)]
            exact ⟨_, rfl⟩
        · left
          rw [sendOpened_short _ host (by omega), if_neg (by dsimp only; omega)]
          exact ⟨⟨hpath, by omega⟩, rfl⟩
      · right
        have hlong : 2 ^ 16 ≤ e.path.length := by omega
        obtain ⟨msg, hrun⟩ := sendOpened_longPath (readBroken err) host hlong
          ⟨content, length, []⟩
        rw [hrun]
        exact ⟨fun h => hpath h.1, msg, rfl⟩

/-! ### The whole walk -/

theorem sendEach_cons_ok {host : Host} {e : DirEntry} (hok : (sendPath host e).1 = .ok ())
    (entries : List DirEntry) (conns : List Connection) :
    sendEach host (e :: entries) conns = sendEach host entries (conns ++ [connection host e]) := by
  have hrun : sendEntry host e conns = (.ok (), conns ++ [connection host e]) := by
    rw [sendEntry, hok]
  rw [sendEach, Exec.bind_ok hrun]

/-- **How far the loop comes.**  Either every entry is harmless and has its connection, or the
loop panics at the first one that is not, and nothing is sent for the entries behind it. -/
theorem sendEach_cases (host : Host) :
    ∀ (entries : List DirEntry) (conns : List Connection),
      (∀ e ∈ entries, e.Harmless) ∧
          sendEach host entries conns = (.ok (), conns ++ entries.map (connection host)) ∨
        ∃ before e after msg, entries = before ++ e :: after ∧ (∀ b ∈ before, b.Harmless) ∧
          ¬ e.Harmless ∧ sendEach host entries conns
            = (.error (.panic msg), conns ++ (before ++ [e]).map (connection host)) := by
  intro entries
  induction entries with
  | nil =>
      intro conns
      left
      refine ⟨fun e he => absurd he List.not_mem_nil, ?_⟩
      rw [List.map_nil, List.append_nil]
      rfl
  | cons e entries ih =>
      intro conns
      rcases sendPath_cases host e with ⟨hharmless, hok⟩ | ⟨hharmful, msg, hpanic⟩
      · rw [sendEach_cons_ok hok]
        rcases ih (conns ++ [connection host e]) with
          ⟨hall, hrun⟩ | ⟨before, stop, after, msg, hsplit, hbefore, hstop, hrun⟩
        · left
          refine ⟨?_, by rw [hrun, List.map_cons, List.append_assoc, List.singleton_append]⟩
          intro e' he'
          rcases List.mem_cons.mp he' with rfl | he'
          · exact hharmless
          · exact hall e' he'
        · right
          refine ⟨e :: before, stop, after, msg, by rw [hsplit, List.cons_append], ?_, hstop, ?_⟩
          · intro e' he'
            rcases List.mem_cons.mp he' with rfl | he'
            · exact hharmless
            · exact hbefore e' he'
          · rw [hrun, List.cons_append, List.map_cons, List.append_assoc, List.singleton_append]
      · right
        have hrun : sendEntry host e conns
            = (.error (.panic msg), conns ++ [connection host e]) := by rw [sendEntry, hpanic]
        refine ⟨[], e, entries, msg, rfl, fun b hb => absurd hb List.not_mem_nil, hharmful, ?_⟩
        rw [sendEach, Exec.bind_fault hrun]
        rfl

/-- A path has one entry in a walk, so it has one connection. -/
theorem filter_connections (host : Host) :
    ∀ {entries : List DirEntry}, (entries.map DirEntry.path).Nodup → ∀ e ∈ entries,
      (entries.map (connection host)).filter (fun c => c.path = e.path) = [connection host e] := by
  intro entries
  induction entries with
  | nil => intro _ e he; exact absurd he List.not_mem_nil
  | cons first entries ih =>
      intro hnodup e he
      rw [List.map_cons, List.nodup_cons] at hnodup
      rw [List.map_cons]
      rcases List.mem_cons.mp he with rfl | he
      · rw [List.filter_cons_of_pos (by simp [connection])]
        have hnone : (entries.map (connection host)).filter (fun c => c.path = e.path) = [] := by
          rw [List.filter_eq_nil_iff]
          intro c hc
          obtain ⟨e', he', rfl⟩ := List.mem_map.mp hc
          intro hsame
          have hpath : e'.path = e.path := of_decide_eq_true hsame
          exact hnodup.1 (hpath ▸ List.mem_map_of_mem he')
        rw [hnone]
      · have hne : first.path ≠ e.path := by
          intro hsame
          exact hnodup.1 (hsame ▸ List.mem_map_of_mem he)
        have hdrop : ¬ decide ((connection host first).path = e.path) = true :=
          fun h => hne (of_decide_eq_true h)
        rw [List.filter_cons, if_neg hdrop]
        exact ih hnodup.2 e he

theorem Walk.entries_nodup (walk : Walk) : (walk.entries.map DirEntry.path).Nodup :=
  walk.nodup.sublist (List.filter_sublist.map _)

/-- A readable regular file with these bytes, which one frame can carry: at most `u32::MAX` of
them, behind a header that fits into the buffer. -/
def DirEntry.Sends (e : DirEntry) (data : List UInt8) : Prop :=
  ∃ content : SegStream UInt8, e.opened = .file data.length content ∧ content.elems = data ∧
    data.length ≤ 4294967295 ∧ e.path.length + 11 ≤ 1024

/-- The connection of such a file carries its frame. -/
theorem connection_sends (host : Host) {e : DirEntry} {data : List UInt8} (h : e.Sends data) :
    connection host e = ⟨e.path, opSaveFile :: saveFrame host e.path data⟩ := by
  obtain ⟨content, hopened, rfl, hlen, hfits⟩ := h
  have hemits := (sendFile_emits host e.path (s := ⟨content, content.elems.length, []⟩) rfl
    (by dsimp only; omega) hfits).2
  rw [connection, sendPath, hopened]
  dsimp only
  rw [hemits, List.nil_append]

/-- The walk loses nothing: `send_folder` returns, and every readable file that a frame can
carry has exactly one connection, with its complete frame. -/
def Complete (host : Host) (walk : Walk) : Prop :=
  (sendFolder host walk []).1 = .ok () ∧ ∀ e ∈ walk.entries, ∀ data, e.Sends data →
    (sendFolder host walk []).2.filter (fun c => c.path = e.path)
      = [⟨e.path, opSaveFile :: saveFrame host e.path data⟩]

/-- **When no entry loses the rest of the folder.**  For every walk, in whatever order it
comes, `send_folder` returns and delivers every readable file exactly when all its entries
are harmless. -/
theorem complete_iff (host : Host) (walk : Walk) :
    Complete host walk ↔ ∀ e ∈ walk.entries, e.Harmless := by
  rw [Complete, sendFolder]
  constructor
  · rintro ⟨hreturns, _⟩
    rcases sendEach_cases host walk.entries [] with ⟨hall, _⟩ | ⟨_, _, _, msg, _, _, _, hrun⟩
    · exact hall
    · rw [hrun] at hreturns
      cases hreturns
  · intro hall
    rcases sendEach_cases host walk.entries [] with ⟨_, hrun⟩ | ⟨_, e, _, _, hsplit, _, hstop, _⟩
    · rw [hrun]
      refine ⟨rfl, fun e he data hsends => ?_⟩
      rw [List.nil_append, filter_connections host walk.entries_nodup e he,
        connection_sends host hsends]
    · exact absurd (hall e (by rw [hsplit]; simp)) hstop

/-- A folder with a link to nowhere and, behind it, an empty file. -/
def danglingLink : Walk where
  results := [
    .ok ⟨[100, 47, 97], false, .failed ⟨.notFound, "No such file or directory"⟩⟩,
    .ok ⟨[100, 47, 98], false, .file 0 SegStream.done⟩]
  nodup := by decide

/-- The link ends the walk with a panic, and the file behind it is not sent. -/
theorem danglingLink_incomplete : ¬ ∀ (host : Host) (walk : Walk), Complete host walk := by
  intro h
  obtain ⟨hreturns, _⟩ := h ieeeHost danglingLink
  cases hreturns

end Pcopy.Client
