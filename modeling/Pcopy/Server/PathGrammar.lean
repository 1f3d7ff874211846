import Pcopy.Server.PathField
import Pcopy.Server.Crc32

/-!
# What `create_parent_folder` accepts

The function accepts exactly the streams that begin with a path field whose checksum
matches and which ends within the buffer.  What it returns is a function of the bytes ahead
and of where the field starts, so that the segmentation, and how many of the bytes were
buffered before, make no difference.

* `createParentFolder_ahead` — the run on a stream that begins with such a field;
* `createParentFolder_grammar` — the verdict, the result and what was left alone.
-/

namespace Pcopy.Server

open Pcopy.Lib Pcopy.Path

/-- The bytes ahead, buffered or not, begin with a path field that passes its checksum and
ends within the buffer; `rest` is what follows it. -/
def PathAhead (host : Host) (s : ServerState) (startIndex endIndex : ℕ) (path : PathBytes)
    (rest : List UInt8) : Prop :=
  PathFieldAhead s.buf.length startIndex (unread s startIndex endIndex) path (crc32 host path) rest

/-- A path that is ahead has a directory above it, and `create_dir_all` makes it. -/
def DirCreatable (host : Host) (s : ServerState) (startIndex endIndex : ℕ) : Prop :=
  ∀ path rest, PathAhead host s startIndex endIndex path rest →
    ∃ dir, parentFolder (completePath path) = some dir ∧ (s.disk.createDirAll dir).1 = .ok ()

/-- What a caller learns of the request: the path and where the field ended. -/
def verdict (o : Except (Fault IoError) (BufferState × PathBytes)) : Option (PathBytes × ℕ) :=
  o.toOption.map fun r => (r.2, r.1.startIndex)

section

variable {host : Host} {s s' : ServerState} {startIndex endIndex : ℕ}
  {o : Except (Fault IoError) (BufferState × PathBytes)}

/-- Where a path field is ahead, it is taken off the stream and its directory made. -/
theorem createParentFolder_ahead (hin : InBuffer s startIndex endIndex)
    (hdir : DirCreatable host s startIndex endIndex)
    (hrun : createParentFolder host endIndex startIndex s = (o, s')) {path : PathBytes}
    {rest : List UInt8} (h : PathAhead host s startIndex endIndex path rest) :
    ∃ st, o = .ok (st, completePath path) ∧ st.startIndex = startIndex + (6 + path.length) ∧
      InBuffer s' st.startIndex st.endIndex ∧ unread s' st.startIndex st.endIndex = rest := by
  rcases createParentFolder_cases host hin hrun with
    ⟨path', st, s₁, hver, hmake⟩ | ⟨_, _, hnone⟩
  · obtain ⟨rfl, _, hrest⟩ := h.unique hver.ahead
    obtain ⟨dir, hparent, hmk⟩ := hdir path rest h
    rw [← hver.reads.disk] at hmk
    have hmade : makeParentFolder path st s₁ = _ := makeParentFolder_run hparent hmk
    obtain ⟨rfl, rfl⟩ := Prod.mk.inj (hmake.symm.trans hmade)
    have hadv := hver.advanced
    exact ⟨st, rfl, by omega, ⟨hver.inBuffer.ordered, hver.inBuffer.fits⟩, hrest.symm⟩
  · exact absurd h (hnone path rest)

/-- Where no path field is ahead, an error is returned and the file system was not called. -/
theorem createParentFolder_none (hin : InBuffer s startIndex endIndex)
    (hrun : createParentFolder host endIndex startIndex s = (o, s'))
    (h : ∀ path rest, ¬ PathAhead host s startIndex endIndex path rest) :
    (∃ e, o = .error (.err e)) ∧ s'.effects = s.effects := by
  rcases createParentFolder_cases host hin hrun with
    ⟨path, st, s₁, hver, _⟩ | ⟨hreads, herr, _⟩
  · exact absurd hver.ahead (h path _)
  · exact ⟨herr, hreads.effects⟩

/-- The verdict on a request, by what is ahead. -/
theorem verdict_of_ahead (hin : InBuffer s startIndex endIndex)
    (hdir : DirCreatable host s startIndex endIndex)
    (hrun : createParentFolder host endIndex startIndex s = (o, s')) {path : PathBytes}
    {rest : List UInt8} (h : PathAhead host s startIndex endIndex path rest) :
    verdict o = some (completePath path, startIndex + (6 + path.length)) := by
  obtain ⟨st, rfl, hstart, _⟩ := createParentFolder_ahead hin hdir hrun h
  rw [← hstart]
  rfl

theorem verdict_of_none (hin : InBuffer s startIndex endIndex)
    (hrun : createParentFolder host endIndex startIndex s = (o, s'))
    (h : ∀ path rest, ¬ PathAhead host s startIndex endIndex path rest) : verdict o = none := by
  obtain ⟨⟨e, rfl⟩, _⟩ := createParentFolder_none hin hrun h
  rfl

/-- **The grammar of `create_parent_folder`.**  It returns `Ok` exactly if a path field is
ahead; it then returns the path under the saving directory, the index behind the field, and a
window that holds what was read beyond it; otherwise the file system was not called; and the
verdict is that on any other division of the bytes ahead into buffered and streamed ones and
into segments. -/
theorem createParentFolder_grammar (hin : InBuffer s startIndex endIndex)
    (hdir : DirCreatable host s startIndex endIndex)
    (hrun : createParentFolder host endIndex startIndex s = (o, s')) :
    ((∃ r, o = .ok r) ↔ ∃ path rest, PathAhead host s startIndex endIndex path rest) ∧
      (∀ path rest, PathAhead host s startIndex endIndex path rest →
        ∃ st, o = .ok (st, completePath path) ∧ st.startIndex = startIndex + (6 + path.length) ∧
          InBuffer s' st.startIndex st.endIndex ∧
          window s'.buf st.startIndex st.endIndex ++ s'.socket.elems = rest) ∧
      ((∀ r, o ≠ .ok r) → s'.effects = s.effects) ∧
      ∀ t endIndex', InBuffer t startIndex endIndex' → t.buf.length = s.buf.length →
        t.disk = s.disk → unread t startIndex endIndex' = unread s startIndex endIndex →
        verdict (createParentFolder host endIndex' startIndex t).1 = verdict o := by
  have hahead : ∀ {path rest}, PathAhead host s startIndex endIndex path rest → _ :=
    fun hpath => createParentFolder_ahead hin hdir hrun hpath
  by_cases h : ∃ path rest, PathAhead host s startIndex endIndex path rest
  · obtain ⟨path, rest, hpath⟩ := h
    obtain ⟨st, hok, _⟩ := hahead hpath
    refine ⟨⟨fun _ => ⟨path, rest, hpath⟩, fun _ => ⟨_, hok⟩⟩, fun _ _ => hahead,
      fun hnot => absurd hok (hnot _), ?_⟩
    intro t endIndex' hin' hbuf hdisk hun
    have hsame : PathAhead host t startIndex endIndex' path rest := by
      rw [PathAhead, hbuf, hun]
      exact hpath
    have hdir' : DirCreatable host t startIndex endIndex' := by
      intro path' rest' hpath'
      rw [PathAhead, hbuf, hun] at hpath'
      rw [hdisk]
      exact hdir path' rest' hpath'
    rw [verdict_of_ahead hin hdir hrun hpath]
    exact verdict_of_ahead hin' hdir' rfl hsame
  · have hnone : ∀ path rest, ¬ PathAhead host s startIndex endIndex path rest :=
      fun path rest hpath => h ⟨path, rest, hpath⟩
    obtain ⟨⟨e, ho⟩, heffects⟩ := createParentFolder_none hin hrun hnone
    refine ⟨⟨?_, fun hpath => absurd hpath h⟩, fun _ _ => hahead, fun _ => heffects, ?_⟩
    · rintro ⟨r, hr⟩
      cases ho.symm.trans hr
    · intro t endIndex' hin' hbuf hdisk hun
      rw [verdict_of_none hin hrun hnone]
      refine verdict_of_none hin' rfl ?_
      intro path rest hpath
      rw [PathAhead, hbuf, hun] at hpath
      exact hnone path rest hpath

end

/-- The path field of `a` in two segments, with two bytes behind it. -/
def folderRequest : SegStream UInt8 where
  segs := [(pathFrame ieeeHost [97]).take 5, (pathFrame ieeeHost [97]).drop 5 ++ [7, 7]]
  nonempty := by decide +kernel

theorem folderRequest_ahead :
    PathAhead ieeeHost (accepted folderRequest savingDisk) 0 0 [97] [7, 7] where
  utf8 := by decide +kernel
  short := by decide
  bytes := by decide +kernel
  fits := by decide +kernel

theorem folderRequest_creatable : DirCreatable ieeeHost (accepted folderRequest savingDisk) 0 0 := by
  intro path rest hpath
  obtain ⟨rfl, _⟩ := folderRequest_ahead.unique hpath
  exact ⟨components rootSavingDirectory, by decide +kernel, by decide +kernel⟩

theorem createParentFolder_grammar_folderRequest :
    ∃ o s', o = .ok (⟨7, 9⟩, completePath [97]) ∧
      ((∃ r, o = .ok r) ↔
        ∃ path rest, PathAhead ieeeHost (accepted folderRequest savingDisk) 0 0 path rest) ∧
      (∀ path rest, PathAhead ieeeHost (accepted folderRequest savingDisk) 0 0 path rest →
        ∃ st, o = .ok (st, completePath path) ∧ st.startIndex = 0 + (6 + path.length) ∧
          InBuffer s' st.startIndex st.endIndex ∧
          window s'.buf st.startIndex st.endIndex ++ s'.socket.elems = rest) ∧
      ((∀ r, o ≠ .ok r) → s'.effects = (accepted folderRequest savingDisk).effects) ∧
      ∀ t endIndex', InBuffer t 0 endIndex' →
        t.buf.length = (accepted folderRequest savingDisk).buf.length →
        t.disk = (accepted folderRequest savingDisk).disk →
        unread t 0 endIndex' = unread (accepted folderRequest savingDisk) 0 0 →
        verdict (createParentFolder ieeeHost endIndex' 0 t).1 = verdict o :=
  ⟨_, _, rfl, createParentFolder_grammar ⟨le_rfl, Nat.zero_le _⟩ folderRequest_creatable
    (Exec.run_eq (by decide +kernel))⟩

end Pcopy.Server
