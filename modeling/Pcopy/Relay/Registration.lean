import Pcopy.Relay.Server

/-!
# Whether registering works

The handler of Register, from every state of the relay, and what later requests find in the
registry.

* `serve_keeps_entry` — an entry stays until its identifier is registered again;
* `registration_iff` — registering works exactly for identifiers that are registered already:
  the handler unwraps the entry that it replaces.
-/

namespace Pcopy.Relay

open Pcopy.Lib

/-! ### The registry over a run -/

/-- A request as a task handles it. -/
structure Request where
  connection : StreamId
  address : IpAddr
  frame : RelayFrames

/-- The relay after the handlers of these requests, however each of them ended. -/
def serve (net : Net) (fuel : ℕ) : List Request → World → World
  | [], w => w
  | q :: rest, w =>
      serve net fuel rest (processFrame net fuel q.connection q.address q.frame w).2

section

variable {net : Net}

/-- The registry is what it was. -/
def SameCache (w w' : World) : Prop := w'.connCache = w.connCache

theorem SameCache.trans (w₁ w₂ w₃ : World) (h : SameCache w₁ w₂) (h' : SameCache w₂ w₃) :
    SameCache w₁ w₃ := Eq.trans h' h

theorem onSocket_sameCache {α : Type} (i : StreamId) (x : Exec IoError Socket α) :
    Exec.Moves SameCache (World.onSocket i x) := fun _ => rfl

theorem writeFrame_sameCache (i : StreamId) (frame : PeerFrames) :
    Exec.Moves SameCache (writeFrameGivenStream (World.stream net i) frame) :=
  Exec.Moves.bind SameCache.trans (onSocket_sameCache i _) fun _ => onSocket_sameCache i _

theorem readFrame_sameCache (i : StreamId) (fuel : ℕ) :
    Exec.Moves (fun s s' : BytesMut × World => SameCache s.2 s'.2)
      (readFrameGivenStream (F := RelayFrames) net.reserve (World.stream net i) fuel) := by
  have htrans : ∀ a b c : BytesMut × World,
      SameCache a.2 b.2 → SameCache b.2 c.2 → SameCache a.2 c.2 :=
    fun a b c => SameCache.trans a.2 b.2 c.2
  induction fuel with
  | zero => exact fun _ => rfl
  | succ fuel ih =>
      refine Exec.Moves.bind htrans (fun _ => rfl) fun s => ?_
      refine Exec.Moves.bind htrans (fun _ => rfl) fun result => ?_
      cases result with
      | some frame => exact fun _ => rfl
      | none =>
          refine Exec.Moves.bind htrans (onSocket_sameCache i _).onSecond fun bytes => ?_
          refine Exec.Moves.bind htrans (fun _ => rfl) fun _ => ?_
          by_cases hbytes : bytes = []
          · rw [if_pos hbytes]
            split
            · exact fun _ => rfl
            · exact fun _ => rfl
          · rw [if_neg hbytes]
            exact ih

theorem probe_sameCache (fuel : ℕ) (id : PeerId) :
    Exec.Moves SameCache (Server.probe net fuel id) := by
  refine Exec.Moves.bind SameCache.trans (fun _ => rfl) fun w => ?_
  cases w.connCache.get id with
  | none => exact fun _ => rfl
  | some connMd =>
      refine Exec.Moves.bind SameCache.trans (writeFrame_sameCache _ _) fun _ => ?_
      refine Exec.Moves.bind SameCache.trans
        ((readFrame_sameCache connMd.stream fuel).withLocal _).attempt fun result => ?_
      match result with
      | .error _ => exact fun _ => rfl
      | .ok none => exact fun _ => rfl
      | .ok (some frame) => cases frame <;> exact fun _ => rfl

theorem doconnect_sameCache (id : PeerId) (sourceIp : IpAddr) :
    Exec.Moves SameCache (Server.doconnect net id sourceIp) := by
  refine Exec.Moves.bind SameCache.trans (fun _ => rfl) fun w => ?_
  cases w.connCache.get id with
  | none => exact fun _ => rfl
  | some connMd => exact writeFrame_sameCache _ _

/-- **Only Register writes to the registry.** -/
theorem processFrame_sameCache (fuel : ℕ) (i : StreamId) (address : IpAddr) {frame : RelayFrames}
    (h : ∀ id, frame ≠ .register id) :
    Exec.Moves SameCache (processFrame net fuel i address frame) := by
  cases frame with
  | register id => exact absurd rfl (h id)
  | probe id =>
      refine Exec.Moves.bind SameCache.trans (probe_sameCache fuel id).attempt fun result => ?_
      cases result <;> exact writeFrame_sameCache i _
  | doConnect id =>
      refine Exec.Moves.bind SameCache.trans (doconnect_sameCache id address).attempt
        fun result => ?_
      cases result <;> exact writeFrame_sameCache i _
  | ping =>
      exact Exec.Moves.bind SameCache.trans (fun _ => rfl) fun w => writeFrame_sameCache i _
  | probeAck => exact fun _ => rfl

/-! ### Registering -/

/-- The relay with an entry more, or another one. -/
def World.entered (id : PeerId) (address : IpAddr) (i : StreamId) (w : World) : World :=
  { w with connCache := (w.connCache.insert id ⟨i, address⟩).2 }

/-- The entry is made, and the value it replaces unwrapped. -/
theorem register_run (id : PeerId) (address : IpAddr) (i : StreamId) (w : World) :
    Server.register id address i w =
      (if (w.connCache.get id).isSome then .ok () else .error (.panic unwrapNone),
        w.entered id address i) := by
  rw [Server.register, Exec.get_bind]
  simp only [Exec.modify_bind, Cache.insert_old]
  cases w.connCache.get id with
  | none => rfl
  | some old => rfl

/-- The handler of a first registration panics, with the entry made. -/
theorem processRegisterFrame_first {id : PeerId} {w : World} (h : w.connCache.get id = none)
    (i : StreamId) (address : IpAddr) :
    processRegisterFrame net i address id w
      = (.error (.panic unwrapNone), w.entered id address i) := by
  have hrun := register_run id address i w
  rw [h] at hrun
  exact Exec.bind_fault (Exec.attempt_panic hrun)

/-- The handler of a later registration makes the entry and writes its reply. -/
theorem processRegisterFrame_again {id : PeerId} {w : World} (h : (w.connCache.get id).isSome)
    (i : StreamId) (address : IpAddr) :
    processRegisterFrame net i address id w
      = RelayConnection.writeFrame (World.stream net i) (.registerResult .success)
          (w.entered id address i) := by
  have hrun := register_run id address i w
  rw [if_pos h] at hrun
  exact Exec.bind_ok (Exec.attempt_ok hrun)

/-- A registration changes no other entry. -/
theorem processRegisterFrame_keeps {id other : PeerId} (h : other ≠ id) (i : StreamId)
    (address : IpAddr) (w : World) :
    (processRegisterFrame net i address id w).2.connCache.get other = w.connCache.get other := by
  have hentered : (w.entered id address i).connCache.get other = w.connCache.get other :=
    Cache.get_insert_ne _ _ h
  cases hid : w.connCache.get id with
  | none => rw [processRegisterFrame_first hid, hentered]
  | some old =>
      rw [processRegisterFrame_again (by simp [hid])]
      have hsame : SameCache _ (writeFrameGivenStream (World.stream net i) _ _).2 :=
        writeFrame_sameCache i (.registerResult .success) (w.entered id address i)
      rw [← hentered]
      exact congrArg (fun c => Cache.get c other) hsame

/-- **An entry stays** until its identifier is registered again, whatever else is handled. -/
theorem serve_keeps_entry (fuel : ℕ) {id : PeerId} (requests : List Request)
    (hother : ∀ q ∈ requests, q.frame ≠ .register id) (w : World) :
    (serve net fuel requests w).connCache.get id = w.connCache.get id := by
  induction requests generalizing w with
  | nil => rfl
  | cons q rest ih =>
      rw [serve, ih fun q' hq' => hother q' (List.mem_cons_of_mem q hq')]
      have hq := hother q List.mem_cons_self
      obtain ⟨i, address, frame⟩ := q
      by_cases hregister : ∃ other, frame = .register other
      · obtain ⟨other, rfl⟩ := hregister
        have hne : id ≠ other := fun heq => hq (by rw [heq])
        exact processRegisterFrame_keeps hne i address w
      · have hsame : SameCache w (processFrame net fuel i address frame w).2 :=
          processFrame_sameCache fuel i address (fun other heq => hregister ⟨other, heq⟩) w
        exact congrArg (fun c => Cache.get c id) hsame

/-- Registering works: the handler returns, the registry has the new entry and is otherwise
what it was, one reply goes out on the connection and nothing anywhere else, and whoever
looks the identifier up later finds the entry, unless it was registered again. -/
def Registered (net : Net) (i : StreamId) (address : IpAddr) (id : PeerId) (w : World) : Prop :=
  ∃ w', processRegisterFrame net i address id w = (.ok (), w') ∧
    w'.connCache.get id = some ⟨i, address⟩ ∧
    (∀ other, other ≠ id → w'.connCache.get other = w.connCache.get other) ∧
    (w'.sockets i).written
      = (w.sockets i).written ++ (PeerFrames.registerResult .success).toBeBytes ∧
    (w'.sockets i).sent = (w'.sockets i).written ∧
    (∀ j, j ≠ i → w'.sockets j = w.sockets j) ∧
    ∀ fuel requests, (∀ q ∈ requests, q.frame ≠ .register id) →
      (serve net fuel requests w').connCache.get id = some ⟨i, address⟩

/-- The reply to a registration can be written to connection `i`. -/
def Replies (net : Net) (i : StreamId) (w : World) : Prop :=
  (w.sockets i).Takes (net.outlet i) (PeerFrames.registerResult .success).toBeBytes

theorem registered_of_again {i : StreamId} {address : IpAddr} {id : PeerId} {w : World}
    (h : (w.connCache.get id).isSome) (hreplies : Replies net i w) :
    Registered net i address id w := by
  have hfind : ((w.entered id address i).wrote i (.registerResult .success)).connCache.get id
      = some ⟨i, address⟩ := Cache.get_insert_self _ _ _
  rcases writeFrame_cases net i (.registerResult .success) (w.entered id address i) with
    ⟨_, hrun⟩ | ⟨htakes, _⟩
  · refine ⟨_, by rw [processRegisterFrame_again h, RelayConnection.writeFrame, hrun], hfind,
      fun other hne => Cache.get_insert_ne _ _ hne, ?_, ?_, ?_, ?_⟩
    · simp [World.wrote, World.entered, Socket.wrote, Socket.onWriter]
    · simp [World.wrote, Socket.wrote, Socket.onWriter]
    · intro j hj
      simp [World.wrote, World.entered, hj]
    · intro fuel requests hother
      rw [serve_keeps_entry fuel requests hother, hfind]
  · exact absurd hreplies htakes

theorem again_of_registered {i : StreamId} {address : IpAddr} {id : PeerId} {w : World}
    (h : Registered net i address id w) : (w.connCache.get id).isSome ∧ Replies net i w := by
  obtain ⟨w', hrun, _⟩ := h
  cases hid : w.connCache.get id with
  | none =>
      rw [processRegisterFrame_first hid, Prod.mk.injEq] at hrun
      exact absurd hrun.1 (by simp)
  | some old =>
      refine ⟨rfl, ?_⟩
      rw [processRegisterFrame_again (by simp [hid]), RelayConnection.writeFrame] at hrun
      rcases writeFrame_cases net i (.registerResult .success) (w.entered id address i) with
        ⟨htakes, _⟩ | ⟨_, e, w₁, herr⟩
      · exact htakes
      · rw [herr, Prod.mk.injEq] at hrun
        exact absurd hrun.1 (by simp)

end

/-- **Registering works only for identifiers that are registered already**, in every state of
the relay and for every connection; the first registration of an identifier panics. -/
theorem registration_iff (net : Net) (i : StreamId) (address : IpAddr) (id : PeerId)
    (w : World) :
    Registered net i address id w ↔ (w.connCache.get id).isSome ∧ Replies net i w := by
  constructor
  · exact again_of_registered
  · intro h
    exact registered_of_again h.1 h.2

/-- On a new relay, the first peer's registration is a panic. -/
theorem first_registration_panics :
    (processRegisterFrame Net.open 0 localAddress PeerId.zero (World.new SegStream.done)).1
        = .error (.panic unwrapNone) ∧
      ¬ Registered Net.open 0 localAddress PeerId.zero (World.new SegStream.done) := by
  refine ⟨by rw [processRegisterFrame_first rfl], ?_⟩
  intro h
  exact absurd (again_of_registered h).1 (by decide)

end Pcopy.Relay
