import Pcopy.Relay.Codec
import Pcopy.Relay.OneRequest
import Pcopy.Relay.Sender
import Pcopy.Relay.Streams

/-!
# The sender and the relay together

`connect_to_peer` registers first, and goes on when the relay has accepted the registration.  The
relay accepts it only for an identifier that is registered already, and the first to register one
is left without a reply.

* `Admission` — whom the relay accepts;
* `sender_at_relay` — how far the sender comes with any run of the relay behind the connection.
-/

namespace Pcopy.Relay

open Pcopy.Lib

/-! ### Whom the relay accepts -/

/-- Another task than `t` has inserted `id`. -/
def Rivalled (h : History) (t : TaskId) (id : PeerId) : Prop :=
  ∃ u ≠ t, (u, .inserted id) ∈ h.log

/-- The task has reason to accept a registration. -/
def Admits (h : History) (t : TaskId) (status : StatusCodes) : Prop :=
  status = .success ∧ ∃ id, (t, .inserted id) ∈ h.log ∧ Rivalled h t id

/-- Registrations are accepted only where another task has inserted the identifier; who inserts an
identifier that no other has is gone. -/
structure Admission (s : State) (h : History) : Prop where
  alone : ∀ t id, (t, .inserted id) ∈ h.log → s.pc t = .ended .panicked ∨ Rivalled h t id
  pending : ∀ t status phase, s.pc t = .reply (.registerResult status) phase → Admits h t status
  written : ∀ t i status, (t, .wrote i (.registerResult status)) ∈ h.log → Admits h t status

section

variable {cfg : Config} {s s' : State} {h : History} {a : Action} {t : TaskId}

theorem Rivalled.observe {id : PeerId} (hr : Rivalled h t id) (s : State) (a : Action) :
    Rivalled (observe s a h) t id := by
  obtain ⟨u, hu, hmem⟩ := hr
  exact ⟨u, hu, List.mem_append_left _ hmem⟩

theorem Admits.observe {status : StatusCodes} (ha : Admits h t status) (s : State) (a : Action) :
    Admits (observe s a h) t status := by
  obtain ⟨hstatus, id, hmem, hr⟩ := ha
  exact ⟨hstatus, id, List.mem_append_left _ hmem, hr.observe s a⟩

theorem dispatch_ne_registerResult (health : HealthStatus) (buffer : BytesMut)
    (status : StatusCodes) (phase : WritePhase) :
    dispatch health buffer ≠ .reply (.registerResult status) phase := by
  intro h
  rw [dispatch] at h
  split at h <;> cases h

theorem afterAck_ne_registerResult (id : PeerId) (connMd : PeerConnectionMetadata)
    (elapsed : Duration) (buffer : BytesMut) (status : StatusCodes) (phase : WritePhase) :
    afterAck id connMd elapsed buffer ≠ .reply (.registerResult status) phase := by
  intro h
  rw [afterAck] at h
  split at h <;> cases h

/-- A task whose insertion found an entry: another task has inserted it. -/
theorem rivalled_of_entry (hc : Consistent cfg s h) (ha : Admission s h) {id : PeerId}
    {old : PeerConnectionMetadata} (hpc : s.pc t = .register id)
    (hold : s.connCache.get id = some old) : Rivalled h t id := by
  rw [hc.entry id, Option.map_eq_some_iff] at hold
  obtain ⟨u, hlast, -⟩ := hold
  have hmem := mem_of_lastInserter hlast
  by_cases hu : u = t
  · subst hu
    rcases ha.alone u id hmem with hended | hr
    · cases hended.symm.trans hpc
    · exact hr
  · exact ⟨u, hu, hmem⟩

/-- The insertions of a task after its own move. -/
theorem alone_move (hc : Consistent cfg s h) (ha : Admission s h) {task' : Task}
    (hm : Move s t a task') {id : PeerId} (hmem : (t, .inserted id) ∈ (observe s a h).log) :
    task'.pc = .ended .panicked ∨ Rivalled (observe s a h) t id := by
  rcases List.mem_append.mp hmem with hold | hnew
  · rcases ha.alone t id hold with hended | hr
    · exact absurd hended (hm.ne_ended _)
    · exact Or.inr (hr.observe s a)
  · rcases event_cases (Option.mem_toList.mp hnew) with ⟨_, _, _, _, _, h0⟩ |
      ⟨_, _, _, _, _, h0⟩ | ⟨_, _, _, h0⟩ | ⟨id', rfl, hpc, h0⟩ | ⟨_, _, _, _, h0⟩
    · cases h0
    · cases h0
    · cases h0
    · cases h0
      cases hm with
      | insertNew hpc' hnew => exact Or.inl rfl
      | insertAgain hpc' hold =>
          cases hpc.symm.trans hpc'
          exact Or.inr ((rivalled_of_entry hc ha hpc hold).observe s _)
      | found hpc' hfound => cases hpc.symm.trans hpc'
      | missing hpc' hmissing => cases hpc.symm.trans hpc'
      | commandFailed hpc' _ => cases hpc.symm.trans hpc'
      | replyFailed hpc' _ => cases hpc.symm.trans hpc'
    · cases h0

/-- The reply to a registration that a task is about to give after its own move. -/
theorem pending_registration_move (hc : Consistent cfg s h) (ha : Admission s h) {task' : Task}
    (hm : Move s t a task') {status : StatusCodes} {phase : WritePhase}
    (hpc' : task'.pc = .reply (.registerResult status) phase) :
    Admits (observe s a h) t status := by
  cases hm with
  | lockReply hpc =>
      obtain ⟨rfl, -⟩ := Pc.reply.inj hpc'
      exact (ha.pending t status _ hpc).observe s _
  | writeReply hpc =>
      obtain ⟨rfl, -⟩ := Pc.reply.inj hpc'
      exact (ha.pending t status _ hpc).observe s _
  | endAck hpc hclosed hnext =>
      rcases hnext with ⟨-, rfl⟩ | ⟨-, rfl⟩
      · cases hpc'
      · cases hpc'
  | readReceive hpc hpos hn => exact absurd hpc' (dispatch_ne_registerResult _ _ _ _)
  | readAck hpc hpos hn => exact absurd hpc' (afterAck_ne_registerResult _ _ _ _ _ _)
  | flushReply hpc => exact absurd hpc' (dispatch_ne_registerResult _ _ _ _)
  | @commandFailed inquiry _ _ _ _ _ hpc _ => cases inquiry <;> cases hpc'
  | @missing inquiry _ hpc hmissing => cases inquiry <;> cases hpc'
  | @insertAgain id old hpc hold =>
      cases hpc'
      refine ⟨rfl, id, ?_, (rivalled_of_entry hc ha hpc hold).observe s _⟩
      rw [log_observe (event_inserted hpc)]
      exact List.mem_append_right _ (List.mem_singleton_self _)
  | _ => cases hpc'

/-- What has been written after a step. -/
theorem written_registration_step (ha : Admission s h) {i : StreamId} {status : StatusCodes}
    (hmem : (t, .wrote i (.registerResult status)) ∈ (observe s a h).log) :
    Admits (observe s a h) t status := by
  rcases List.mem_append.mp hmem with hold | hnew
  · exact (ha.written t i status hold).observe s a
  · rcases event_cases (Option.mem_toList.mp hnew) with ⟨_, _, _, _, _, h0⟩ |
      ⟨_, _, _, hwrites, hframe, h0⟩ | ⟨_, _, _, h0⟩ | ⟨_, _, _, h0⟩ | ⟨_, _, _, _, h0⟩
    · cases h0
    · cases h0
      rcases frame_cases hwrites hframe with ⟨_, _, _, _, _, h0⟩ | ⟨hpc, -⟩
      · cases h0
      · exact (ha.pending t status _ hpc).observe s a
    · cases h0
    · cases h0
    · cases h0

/-- **Every step** keeps it. -/
theorem admission_step (hc : Consistent cfg s h) (ha : Admission s h)
    (hstep : step cfg s a = some s') : Admission s' (observe s a h) where
  alone t id hmem := by
    rcases tasks_step hstep t with ⟨-, hm⟩ | ⟨ht, hsame⟩ | ⟨hnew, ht, -⟩
    · exact alone_move hc ha hm hmem
    · have hold : (t, .inserted id) ∈ h.log := by
        rcases List.mem_append.mp hmem with hold | hev
        · exact hold
        · exact absurd (event_task (Option.mem_toList.mp hev)) ht
      rcases ha.alone t id hold with hended | hr
      · exact Or.inl ((congrArg Task.pc hsame).trans hended)
      · exact Or.inr (hr.observe s a)
    · rcases List.mem_append.mp hmem with hold | hev
      · exact absurd (hc.requested t id hold).1 (Nat.not_lt.mpr (le_of_eq hnew.symm))
      · exact absurd (event_task (Option.mem_toList.mp hev)) ht
  pending t status phase hpc' := by
    rcases tasks_step hstep t with ⟨-, hm⟩ | ⟨-, hsame⟩ | ⟨-, -, address, htask⟩
    · exact pending_registration_move hc ha hm hpc'
    · exact (ha.pending t status phase ((congrArg Task.pc hsame).symm.trans hpc')).observe s a
    · rw [State.pc, htask] at hpc'
      cases hpc'
  written t i status hmem := written_registration_step ha hmem

end

/-- What holds of the registrations in every state of every run. -/
structure Registrations (cfg : Config) (s : State) (h : History) : Prop
    extends Recorded cfg s h where
  admission : Admission s h

theorem registrations (cfg : Config) (as : List Action) :
    InStates (observedStep cfg) (State.init, History.new) as fun s =>
      Registrations cfg s.1 s.2 := by
  refine inStates_of_invariant (I := fun s : State × History => Registrations cfg s.1 s.2) ?_ ?_
    (fun _ hinv => hinv) as
  · exact {
      toRecorded := Recorded.init cfg
      admission := {
        alone := fun _ _ hmem => absurd hmem List.not_mem_nil
        pending := fun _ _ _ hpc => by cases hpc
        written := fun _ _ _ hmem => absurd hmem List.not_mem_nil } }
  · intro s a s' hinv hstep
    obtain ⟨hstep, hobserve⟩ := observed_some.mp hstep
    rw [hobserve]
    exact {
      toRecorded := recorded_step hinv.toRecorded hstep
      admission := admission_step hinv.consistent hinv.admission hstep }

/-! ### What the sender reads, and what its task has read -/

/-- A reader of the first part of a stream of frames that gets a reply to Register: it is the first
of the frames. -/
theorem first_registerResult {frames : List PeerFrames} {bytes : List UInt8} {status : StatusCodes}
    (hbytes : bytes <+: encoded frames)
    (hparsed : parsed PeerFrames bytes = .ok (.registerResult status)) :
    .registerResult status ∈ frames := by
  obtain ⟨back, hback⟩ := hbytes
  have hwhole : parsed PeerFrames (encoded frames) = .ok (.registerResult status) := by
    rcases parsed_steady PeerFrames.steady bytes back with hshort | ⟨hsame, -⟩
    · cases hshort.symm.trans hparsed
    · rw [← hback, hsame, hparsed]
  cases frames with
  | nil =>
      have hshort : parsed PeerFrames (encoded []) = .error (.err .incomplete) :=
        parsed_of_short PeerFrames.short_nil
      cases hshort.symm.trans hwhole
  | cons f frames =>
      have hsplit : encoded (f :: frames) = f.toBeBytes ++ encoded frames := List.flatMap_cons
      rw [hsplit] at hwhole
      by_cases hfits : f.AddressFits
      · have hfirst : parsed PeerFrames (f.toBeBytes ++ encoded frames) = .ok f.onWire :=
          parsed_of_parses (PeerFrames.delimits f hfits).whole
        have honWire := Except.ok.inj (hfirst.symm.trans hwhole)
        cases f with
        | registerResult status' =>
            cases honWire
            exact List.mem_cons_self
        | probeResult info => cases info <;> cases honWire
        | doConnectResult status' => cases honWire
        | pingResult health => cases honWire
        | command c => cases honWire
      · -- the address of a DOCONNECT that does not fit is read as another one
        match f, hfits with
        | .command (.doConnect (.v6 ip)), _ =>
            obtain ⟨ip', hparse⟩ := doConnect_v6_readAsV4 ip (encoded frames)
            have hread : parsed PeerFrames (_ ++ encoded frames)
                = .ok (.command (.doConnect (.v4 ip'))) := congrArg Prod.fst hparse
            cases hread.symm.trans hwhole
        | .command .sync, hfits => exact absurd trivial hfits
        | .command (.doConnect (.v4 ip)), hfits => exact absurd trivial hfits
        | .registerResult status', hfits => exact absurd trivial hfits
        | .probeResult info, hfits => exact absurd trivial hfits
        | .doConnectResult status', hfits => exact absurd trivial hfits
        | .pingResult health, hfits => exact absurd trivial hfits

/-- A task that has inserted an identifier has got the Register for it. -/
theorem Course.registered {s : State} {h : History} {t : TaskId} {id : PeerId}
    (hc : Course s h t) (hmem : (t, .inserted id) ∈ h.log) :
    parsed RelayFrames (s.tasks t).buffer.bytes = .ok (.register id) := by
  have htrace : Event.inserted id ∈ trace t h.log :=
    List.mem_filterMap.mpr ⟨(t, .inserted id), hmem, if_pos rfl⟩
  have hnot {events : List Event} (hreads : OwnReads t events) : Event.inserted id ∉ events := by
    intro hin
    obtain ⟨n, heq⟩ := hreads _ hin
    cases heq
  cases hc with
  | receiving hpc hparsed hreads => exact absurd htrace (hnot hreads)
  | stopped hpc hhow hparsed hclosed harrived hreads => exact absurd htrace (hnot hreads)
  | refused hpc hparsed hreads => exact absurd htrace (hnot hreads)
  | serving hparsed hpc hall hreads hwork =>
      rw [hall] at htrace
      rcases List.mem_append.mp htrace with hin | hin
      · exact absurd hin (hnot hreads)
      · obtain rfl : _ = RelayFrames.register id := hwork _ hin
        exact hparsed

/-- The frames on a stream were written there. -/
theorem wrote_of_framesOn {i : StreamId} {log : List (TaskId × Event)} {frame : PeerFrames}
    (hmem : frame ∈ framesOn i log) : ∃ t, (t, .wrote i frame) ∈ log := by
  obtain ⟨⟨t, e⟩, hlog, hframe⟩ := List.mem_filterMap.mp hmem
  cases e with
  | wrote j frame' =>
      simp only [Option.ite_none_right_eq_some, Option.some.injEq] at hframe
      obtain ⟨rfl, rfl⟩ := hframe
      exact ⟨t, hlog⟩
  | _ => cases hframe

/-- What the sender puts on its connection starts with its Register. -/
theorem register_first {source id : PeerId} {more arrived bytes : List UInt8}
    (hput : arrived <+: (RelayFrames.register source).toBeBytes ++ more)
    (hbytes : bytes <+: arrived) (hparsed : parsed RelayFrames bytes = .ok (.register id)) :
    id = source := by
  obtain ⟨back, hback⟩ := hbytes.trans hput
  rcases parsed_front (RelayFrames.delimits (.register source)) hback with hfront | ⟨-, hfront⟩
  · exact RelayFrames.register.inj (Except.ok.inj (hparsed.symm.trans hfront))
  · cases hparsed.symm.trans hfront

/-- **The sender at the relay.**  Take any state of any run of the relay, with any other peers, and
a sender whose connection is `t`: what it has got is the first part of what the relay has sent
there, and what the relay has got is the first part of what the sender has written.  Then the
handshake has not succeeded, and the sender has gone on from its Register to its Probe only if the
task of another connection has registered the sender's identifier as well. -/
theorem sender_at_relay (cfg : Config) {as : List Action} {s : State} {h : History}
    (hrun : runFrom (observedStep cfg) (State.init, History.new) as = some (s, h)) (d : Dialer)
    (r : Reserve) (sourcePeerId destinationPeerId : PeerId) {t : TaskId} {st : SegStream UInt8}
    (fuel : ℕ) (hgot : st.elems <+: (s.channels t).sent)
    (hput : h.arrived t
      <+: (handshake d r sourcePeerId destinationPeerId st fuel).2.2.2.sent) :
    (∃ φ, (handshake d r sourcePeerId destinationPeerId st fuel).1 = .error φ) ∧
      ((handshake d r sourcePeerId destinationPeerId st fuel).2.2.2.sent
          = (RelayFrames.register sourcePeerId).toBeBytes ∨
        ∃ u ≠ t, (u, .inserted sourcePeerId) ∈ h.log) := by
  have hreg : Registrations cfg s h := registrations cfg as as (List.prefix_refl as) (s, h) hrun
  obtain ⟨hwritten, hothers⟩ := inStates_written cfg as as (List.prefix_refl as) (s, h) hrun t
  rcases handshake_cases d r sourcePeerId destinationPeerId st fuel with
    ⟨φ, s', hend, hsent, -⟩ | ⟨φ, s', hend, hsent, ⟨rest, hst, -, hfirst⟩, -⟩
  · rw [hend]
    exact ⟨⟨φ, rfl⟩, Or.inl hsent⟩
  · rw [hend] at hput ⊢
    refine ⟨⟨φ, rfl⟩, Or.inr ?_⟩
    -- what the sender took for the reply is the first frame on its stream
    have hread : s'.1.bytes <+: encoded (framesOn t h.log) := by
      rw [← hwritten]
      refine List.IsPrefix.trans ?_ (hgot.trans (List.take_prefix _ _))
      rw [hst]
      exact List.prefix_append _ _
    obtain ⟨u, hwrote⟩ := wrote_of_framesOn (first_registerResult hread hfirst)
    -- so its own task has written it
    have hown : u = t := by
      by_contra hne
      obtain ⟨c, hcommand⟩ := hothers u _ hwrote (Ne.symm hne)
      cases hcommand
    subst hown
    obtain ⟨-, id, hinserted, v, hv, hrival⟩ := hreg.admission.written u u _ hwrote
    have hparsed := (hreg.courses u).registered hinserted
    rw [hsent] at hput
    obtain rfl := register_first hput (hreg.orderly.arrived u) hparsed
    exact ⟨v, hv, hrival⟩

/-- Two peers register the same identifier. -/
def sharedIdentifier : List Action :=
  [.connect (.v4 (Ipv4Addr.new 10 0 0 1)), .connect (.v4 (Ipv4Addr.new 10 0 0 2)),
    .send 0 (RelayFrames.register PeerId.zero).toBeBytes,
    .send 1 (RelayFrames.register PeerId.zero).toBeBytes,
    .lock 0, .read 0 65 (Duration.fromMillis 0), .access 0,
    .lock 1, .read 1 65 (Duration.fromMillis 0), .access 1,
    .lock 1, .writeAll 1 none, .flush 1 none]

/-- What the second of them gets. -/
def acceptance : SegStream UInt8 :=
  .single (PeerFrames.registerResult .success).toBeBytes (List.cons_ne_nil _ _)

/-- The second goes on to its Probe. -/
theorem sender_at_relay_sharedIdentifier :
    ∃ s h, runFrom (observedStep ⟨BytesMut.reserve, fun _ => 0⟩) (State.init, History.new)
        sharedIdentifier = some (s, h) ∧
      (handshake ⟨.error "", fun _ => none⟩ BytesMut.reserve PeerId.zero PeerId.zero acceptance
        4).2.2.2.sent ≠ (RelayFrames.register PeerId.zero).toBeBytes ∧
      ((handshake ⟨.error "", fun _ => none⟩ BytesMut.reserve PeerId.zero PeerId.zero acceptance
          4).2.2.2.sent = (RelayFrames.register PeerId.zero).toBeBytes ∨
        ∃ u ≠ 1, (u, .inserted PeerId.zero) ∈ h.log) := by
  have hend : ((runFrom (observedStep ⟨BytesMut.reserve, fun _ => 0⟩)
      (State.init, History.new) sharedIdentifier).map fun s =>
        decide (acceptance.elems <+: (s.1.channels 1).sent) &&
          decide (s.2.arrived 1 <+: (handshake ⟨.error "", fun _ => none⟩ BytesMut.reserve
            PeerId.zero PeerId.zero acceptance 4).2.2.2.sent)) = some true := by
    decide +kernel
  obtain ⟨⟨s, h⟩, hrun, hend⟩ := Option.map_eq_some_iff.mp hend
  rw [Bool.and_eq_true, decide_eq_true_eq, decide_eq_true_eq] at hend
  exact ⟨s, h, hrun, by decide +kernel,
    (sender_at_relay _ hrun ⟨.error "", fun _ => none⟩ BytesMut.reserve PeerId.zero PeerId.zero 4
      hend.1 hend.2).2⟩

end Pcopy.Relay
