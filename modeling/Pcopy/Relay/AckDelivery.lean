import Pcopy.Relay.History

/-!
# Whose ack a probe reads

A probe writes SYNC to the stream of a registered peer, lets its mutex go, takes it again and
reads.  The SYNCs on a stream are numbered in the order in which they are written, and so are the
acks of the peer, which answers every SYNC that it has got with one ack, in this order.

* `answeringStep` — the system with the account of its SYNCs and acks;
* `AcksDelivered` — every ack goes to the probe whose SYNC it answers, and a probe reads
  nothing else;
* `acksDelivered_iff` — a run keeps to that exactly if the probes read in turn.
-/

namespace Pcopy.Relay

open Pcopy.Lib

/-- What a byte of a peer belongs to: a request of its own, or its ack of the `n`-th SYNC. -/
inductive Origin where
  | request : Origin
  | ack (n : ℕ) : Origin
  deriving DecidableEq

/-- Who reads a byte of a peer: the peer's own task, or the probe that wrote the `n`-th SYNC. -/
inductive Reader where
  | own : Reader
  | probe (n : ℕ) : Reader
  deriving DecidableEq

/-- The SYNCs and acks of one stream: for every SYNC how many bytes are written with it, how many
acks have come, what the unread bytes belong to, and who has read the others. -/
structure Account where
  syncs : List ℕ
  acks : ℕ
  unread : List Origin
  taken : List (Reader × Origin)

/-- The accounts of all streams, and for every task the number of its last SYNC. -/
structure Accounts where
  streams : StreamId → Account
  number : TaskId → ℕ

namespace Accounts

/-- The accounts of a relay that has just started. -/
def new : Accounts := ⟨fun _ => ⟨[], 0, [], []⟩, fun _ => 0⟩

end Accounts

namespace Pc

/-- The stream whose peer the task, a probe, has sent a SYNC that it has no ack of yet. -/
def awaitsAck : Pc → Option StreamId
  | .command .probe _ connMd .flush => some connMd.stream
  | .ack _ connMd _ _ => some connMd.stream
  | _ => none

/-- The stream to which the task, a probe, is about to write SYNC. -/
def writesSync : Pc → Option StreamId
  | .command .probe _ connMd .write => some connMd.stream
  | _ => none

end Pc

/-! ### What a step adds to the accounts -/

/-- The task that writes SYNC, and the stream. -/
def Action.sync (s : State) : Action → Option (TaskId × StreamId)
  | .writeAll t none => (s.pc t).writesSync.map fun i => (t, i)
  | _ => none

/-- What the bytes belong to that an action brings in from peer `i`. -/
def Action.origins (g : Accounts) (i : StreamId) : Action → List Origin
  | .send j bytes => if i = j then bytes.map fun _ => .request else []
  | .answer j =>
      if i = j then RelayFrames.probeAck.toBeBytes.map fun _ => .ack (g.streams i).acks else []
  | _ => []

/-- How many acks an action brings in from peer `i`. -/
def Action.newAcks (i : StreamId) : Action → ℕ
  | .answer j => if i = j then 1 else 0
  | _ => 0

/-- Who reads, if the action is a read. -/
def Action.reader (s : State) (g : Accounts) : Action → Reader
  | .read t _ _ => if (s.pc t).awaitsAck = none then .own else .probe (g.number t)
  | _ => .own

/-- The accounts after an action. -/
def record (s : State) (a : Action) (g : Accounts) : Accounts where
  streams i := {
    syncs := (g.streams i).syncs ++ (((a.sync s).filter fun p => p.2 = i).toList.map fun _ =>
      (s.channels i).written.length + (PeerFrames.command .sync).toBeBytes.length)
    acks := (g.streams i).acks + a.newAcks i
    unread := (g.streams i).unread.drop (a.takes s i) ++ a.origins g i
    taken := (g.streams i).taken ++
      ((g.streams i).unread.take (a.takes s i)).map fun o => (a.reader s g, o) }
  number t :=
    match (a.sync s).filter fun p => p.1 = t with
    | some p => (g.streams p.2).syncs.length
    | none => g.number t

/-- A peer acks the SYNCs that it has got, one after the other. -/
def Action.InOrder (s : State) (g : Accounts) : Action → Prop
  | .answer i => ∃ e ∈ (g.streams i).syncs[(g.streams i).acks]?, e ≤ (s.channels i).flushed
  | _ => True

instance (s : State) (g : Accounts) (a : Action) : Decidable (a.InOrder s g) := by
  unfold Action.InOrder
  split <;> infer_instance

/-- A step of the system, with its accounts, where the peers ack in order. -/
def answeringStep (cfg : Config) (s : State × Accounts) (a : Action) : Option (State × Accounts) :=
  if a.InOrder s.1 s.2 then observed (step cfg) record s a else none

/-! ### What should hold, and when -/

/-- Who may read what: requests are for the peer's own task, an ack is for the probe whose SYNC
it answers. -/
inductive Rightful : Reader → Origin → Prop where
  | request : Rightful .own .request
  | ack (n : ℕ) : Rightful (.probe n) (.ack n)

/-- Every ack goes to the probe that has asked for it. -/
structure AcksDelivered (s : State) (g : Accounts) : Prop where
  /-- Nobody reads what is for another. -/
  rightful : ∀ i reader origin, (reader, origin) ∈ (g.streams i).taken → Rightful reader origin
  /-- No ack is lost: the probe has read it, or still waits for it and it is there. -/
  kept : ∀ i, ∀ n < (g.streams i).acks, (.probe n, .ack n) ∈ (g.streams i).taken ∨
    .ack n ∈ (g.streams i).unread ∧ ∃ t, (s.pc t).awaitsAck = some i ∧ g.number t = n
  /-- A probe that has read its ack waits no longer. -/
  heard : ∀ t i, (s.pc t).awaitsAck = some i →
    ∀ origin, (.probe (g.number t), origin) ∉ (g.streams i).taken

/-- The number of the SYNC that an ack answers. -/
def Origin.number : Origin → Option ℕ
  | .request => none
  | .ack n => some n

/-- How many acks have been read from a stream. -/
def Account.read (account : Account) : ℕ :=
  ((account.taken.map Prod.snd).filterMap Origin.number).length

/-- The step keeps to the order: a probe reads one byte, which is not one of a request of the
peer, after as many acks as there were SYNCs before its own; and no SYNC is answered whose probe
has given up. -/
structure InTurn (s : State) (g : Accounts) (a : Action) : Prop where
  reads : ∀ t n elapsed id connMd buffer, a = .read t n elapsed →
    s.pc t = .ack id connMd buffer .read → 0 < n → n = 1 ∧
      (g.streams connMd.stream).unread.head? ≠ some .request ∧
        (g.streams connMd.stream).read = g.number t
  answers : ∀ i, a = .answer i →
    ∃ t, (s.pc t).awaitsAck = some i ∧ g.number t = (g.streams i).acks

section

variable {cfg : Config} {s s' : State} {g : Accounts} {a : Action} {t u : TaskId} {i : StreamId}

/-! ### The accounts after a step -/

theorem answeringStep_some {p p' : State × Accounts} :
    answeringStep cfg p a = some p' ↔
      a.InOrder p.1 p.2 ∧ step cfg p.1 a = some p'.1 ∧ p'.2 = record p.1 a p.2 := by
  rw [answeringStep]
  split
  · rw [observed_some]
    simp [*]
  · simp [*]

/-- The action that writes SYNC. -/
theorem sync_cases (h : a.sync s = some (t, i)) :
    a = .writeAll t none ∧ (s.pc t).writesSync = some i := by
  cases a with
  | writeAll t' failed =>
      cases failed with
      | none =>
          obtain ⟨j, hj, heq⟩ := Option.map_eq_some_iff.mp h
          cases heq
          exact ⟨rfl, hj⟩
      | some n => cases h
  | _ => cases h

theorem Pc.writesSync_cases {pc : Pc} (h : pc.writesSync = some i) :
    ∃ id connMd, pc = .command .probe id connMd .write ∧ connMd.stream = i := by
  cases pc with
  | command inquiry id connMd phase =>
      cases inquiry <;> cases phase <;> cases h
      exact ⟨id, connMd, rfl, rfl⟩
  | _ => cases h

theorem Pc.awaitsAck_cases {pc : Pc} (h : pc.awaitsAck = some i) :
    (∃ id connMd, pc = .command .probe id connMd .flush ∧ connMd.stream = i) ∨
      ∃ id connMd buffer phase, pc = .ack id connMd buffer phase ∧ connMd.stream = i := by
  cases pc with
  | command inquiry id connMd phase =>
      cases inquiry <;> cases phase <;> cases h
      exact Or.inl ⟨id, connMd, rfl, rfl⟩
  | ack id connMd buffer phase =>
      cases h
      exact Or.inr ⟨id, connMd, buffer, phase, rfl, rfl⟩
  | _ => cases h

theorem Pc.metadata_of_awaitsAck {pc : Pc} (h : pc.awaitsAck = some i) : pc.metadata ≠ none := by
  rcases awaitsAck_cases h with ⟨_, _, rfl, _⟩ | ⟨_, _, _, _, rfl, _⟩
  · nofun
  · nofun

/-- The accounts of a stream to which a SYNC is written. -/
theorem record_sync (h : a.sync s = some (t, i)) :
    ((record s a g).streams i).syncs = (g.streams i).syncs ++
        [(s.channels i).written.length + (PeerFrames.command .sync).toBeBytes.length] ∧
      (record s a g).number t = (g.streams i).syncs.length := by
  simp [record, h, Option.filter]

/-- The other streams have no new SYNC. -/
theorem record_syncs_ne (h : ∀ t, a.sync s ≠ some (t, i)) :
    ((record s a g).streams i).syncs = (g.streams i).syncs := by
  have hnone : (a.sync s).filter (fun p => p.2 = i) = none := by
    cases hsync : a.sync s with
    | none => rfl
    | some p =>
        refine if_neg fun hi => h p.1 ?_
        rw [hsync, ← of_decide_eq_true hi]
  simp [record, hnone]

/-- The other tasks keep their numbers. -/
theorem record_number_ne (h : ∀ i, a.sync s ≠ some (t, i)) :
    (record s a g).number t = g.number t := by
  have hnone : (a.sync s).filter (fun p => p.1 = t) = none := by
    cases hsync : a.sync s with
    | none => rfl
    | some p =>
        refine if_neg fun ht => h p.2 ?_
        rw [hsync, ← of_decide_eq_true ht]
  simp [record, hnone]

theorem record_acks (s : State) (a : Action) (g : Accounts) (i : StreamId) :
    ((record s a g).streams i).acks = (g.streams i).acks + a.newAcks i := rfl

theorem record_syncs_grow (s : State) (a : Action) (g : Accounts) (i : StreamId) :
    (g.streams i).syncs <+: ((record s a g).streams i).syncs := List.prefix_append _ _

/-! ### What a step does to a probe that has no ack yet -/

/-- A probe that waits for its ack after a move has waited before it, or has just sent SYNC. -/
theorem Move.awaitsAck {task' : Task} (hm : Move s t a task') (h : task'.pc.awaitsAck = some i) :
    (s.pc t).awaitsAck = some i ∨ a.sync s = some (t, i) := by
  cases hm with
  | lockAck hpc =>
      rw [hpc]
      exact Or.inl h
  | endAck hpc hclosed hnext =>
      rcases hnext with ⟨_, rfl⟩ | ⟨_, rfl⟩
      · cases h
      · cases h
  | readReceive hpc hpos hn => exact absurd (dispatch_metadata _ _) (Pc.metadata_of_awaitsAck h)
  | readAck hpc hpos hn =>
      rcases afterAck_cases _ _ _ _ with hd | ⟨_, hd⟩ | ⟨_, hd⟩
      all_goals rw [Task.goto, hd] at h
      · rw [hpc]
        exact Or.inl h
      · cases h
      · cases h
  | @writeCommand inquiry id connMd hpc =>
      right
      cases inquiry with
      | probe =>
          rw [Action.sync, hpc]
          exact congrArg (Option.map _) h
      | doConnect => cases h
  | flushProbe hpc =>
      rw [hpc]
      exact Or.inl h
  | flushReply hpc => exact absurd (dispatch_metadata _ _) (Pc.metadata_of_awaitsAck h)
  | lockCommand hpc => cases ‹Inquiry› <;> cases h
  | found hpc hfound => cases ‹Inquiry› <;> cases h
  | _ => cases h

/-- A probe that waits for its ack waits on, or it cannot flush its SYNC, or it reads. -/
theorem Move.awaitsAck_or {task' : Task} (hm : Move s t a task')
    (h : (s.pc t).awaitsAck = some i) :
    task'.pc.awaitsAck = some i ∨
      (∃ id connMd, s.pc t = .command .probe id connMd .flush ∧ connMd.stream = i) ∨
      ∃ id connMd buffer n elapsed, s.pc t = .ack id connMd buffer .read ∧ connMd.stream = i ∧
        a = .read t n elapsed := by
  rcases Pc.awaitsAck_cases h with hflush | ⟨id, connMd, buffer, phase, hpc, hi⟩
  · exact Or.inr (Or.inl hflush)
  · cases hm with
    | lockAck hpc' =>
        left
        rw [hpc'] at h
        exact h
    | endAck hpc' hclosed hnext =>
        cases hpc.symm.trans hpc'
        exact Or.inr (Or.inr ⟨_, _, _, _, _, hpc, hi, rfl⟩)
    | readAck hpc' hpos hn =>
        cases hpc.symm.trans hpc'
        exact Or.inr (Or.inr ⟨_, _, _, _, _, hpc, hi, rfl⟩)
    | _ hpc' => cases hpc.symm.trans hpc'

/-- A probe that has sent SYNC does not write another one before it has done with it. -/
theorem Pc.writesSync_of_awaitsAck {pc : Pc} (h : pc.awaitsAck = some i) :
    pc.writesSync = none := by
  rcases awaitsAck_cases h with ⟨_, _, rfl, _⟩ | ⟨_, _, _, _, rfl, _⟩
  · rfl
  · rfl

/-- A probe that waits for its ack keeps its number. -/
theorem number_of_awaitsAck (h : (s.pc t).awaitsAck = some i) :
    (record s a g).number t = g.number t := by
  refine record_number_ne fun j hsync => ?_
  obtain ⟨_, hwrites⟩ := sync_cases hsync
  rw [Pc.writesSync_of_awaitsAck h] at hwrites
  cases hwrites

/-- Who waits for an ack after a step: as before it, or it has just sent SYNC. -/
theorem awaitsAck_step (hstep : step cfg s a = some s') (h : (s'.pc t).awaitsAck = some i) :
    (s.pc t).awaitsAck = some i ∧ (record s a g).number t = g.number t ∨
      a.sync s = some (t, i) := by
  rcases tasks_step hstep t with ⟨_, hm⟩ | ⟨_, hsame⟩ | ⟨_, _, address, hnew⟩
  · rcases hm.awaitsAck h with hold | hsync
    · exact Or.inl ⟨hold, number_of_awaitsAck hold⟩
    · exact Or.inr hsync
  · rw [State.pc, hsame] at h
    exact Or.inl ⟨h, number_of_awaitsAck h⟩
  · rw [State.pc, hnew] at h
    cases h

/-- A SYNC is written by a task that has looked its peer up. -/
theorem settled_of_sync (h' : HasHistory s) (h : a.sync s = some (t, i)) :
    ∃ connMd, s.Settled connMd ∧ connMd.stream = i := by
  obtain ⟨_, hwrites⟩ := sync_cases h
  obtain ⟨id, connMd, hpc, hi⟩ := Pc.writesSync_cases hwrites
  obtain ⟨_, h'⟩ := h'
  exact ⟨connMd, h'.users t connMd (by rw [hpc]; rfl), hi⟩

/-! ### What a step sends -/

/-- `advance` takes nothing back. -/
theorem BufWriter.le_advance (b : BufWriter) (n : ℕ) : b.flushed ≤ (b.advance n).flushed :=
  le_min (Nat.le_add_right _ _) b.flushed_le

/-- What is flushed after a write: not less than before, and nothing of the new bytes. -/
theorem writeAll_flushed (c : Channel) (bytes : List UInt8) :
    c.flushed ≤ (c.writeAll bytes).flushed ∧ (c.writeAll bytes).flushed ≤ c.written.length := by
  show c.flushed ≤ BufWriter.flushed (if c.Overfull bytes then _ else _) ∧
    BufWriter.flushed (if c.Overfull bytes then _ else _) ≤ _
  split
  · exact ⟨c.flushed_le, le_rfl⟩
  · exact ⟨le_rfl, c.flushed_le⟩

/-- What is flushed on a stream: more than before only where its mutex is held for it. -/
theorem flushed_step (hstep : step cfg s a = some s') (i : StreamId) :
    (s'.channels i).flushed = (s.channels i).flushed ∨
      (s.channels i).flushed ≤ (s'.channels i).flushed ∧
        ∃ t, a.task = some t ∧ (s.pc t).holds t = some i := by
  have hholder : ∀ (s₁ : State) (j : StreamId) (f : Channel → Channel) (t : TaskId),
      s₁.channels = s.channels → a.task = some t → (s.pc t).holds t = some j →
        (s.channels j).flushed ≤ (f (s.channels j)).flushed →
          ((s₁.onChannel j f).channels i).flushed = (s.channels i).flushed ∨
            (s.channels i).flushed ≤ ((s₁.onChannel j f).channels i).flushed ∧
              ∃ t, a.task = some t ∧ (s.pc t).holds t = some i := by
    intro s₁ j f t hs ht hholds hf
    by_cases hj : i = j
    · subst hj
      rw [State.channels_onChannel_self, hs]
      exact Or.inr ⟨hf, t, ht, hholds⟩
    · rw [State.channels_onChannel_ne _ _ hj, hs]
      exact Or.inl rfl
  cases step_cases hstep with
  | connect address => exact Or.inl rfl
  | send hi hopen hbytes => exact Or.inl (State.field_onChannel (fun c => c.flushed) rfl rfl i)
  | answer hi hopen => exact Or.inl (State.field_onChannel (fun c => c.flushed) rfl rfl i)
  | close hi hopen => exact Or.inl (State.field_onChannel (fun c => c.flushed) rfl rfl i)
  | lock hwants hfree => exact Or.inl (State.field_onChannel (fun c => c.flushed) rfl rfl i)
  | readEnd hreads hempty hclosed =>
      exact Or.inl (State.field_onChannel (fun c => c.flushed) rfl rfl i)
  | read hreads hpos hn hroom => exact Or.inl (State.field_onChannel (fun c => c.flushed) rfl rfl i)
  | @write t j frame hwrites hframe =>
      refine hholder _ j _ t rfl rfl (Pc.holds_of_writes (by decide) hwrites) ?_
      exact (writeAll_flushed _ _).1
  | @writeFailed t j n hwrites =>
      refine hholder _ j _ t rfl rfl (Pc.holds_of_writes (by decide) hwrites) ?_
      exact (s.channels j).le_advance n
  | @flush t j hwrites =>
      refine hholder _ j _ t rfl rfl (Pc.holds_of_writes (by decide) hwrites) ?_
      exact (s.channels j).flushed_le
  | @flushFailed t j n hwrites =>
      refine hholder _ j _ t rfl rfl (Pc.holds_of_writes (by decide) hwrites) ?_
      exact (s.channels j).le_advance n
  | insertNew hpc hfree hnew => exact Or.inl rfl
  | insertAgain hpc hfree hold => exact Or.inl rfl
  | found hpc hfound => exact Or.inl rfl
  | missing hpc hmissing => exact Or.inl rfl

/-! ### The accounts are right -/

/-- The numbers of the acks of a stream, read or not, in the order in which they have come. -/
def Account.order (account : Account) : List ℕ :=
  (account.taken.map Prod.snd ++ account.unread).filterMap Origin.number

/-- A byte of an ack is the byte of a ProbeAck. -/
def Origin.Matches (origin : Origin) (byte : UInt8) : Prop :=
  ∀ n, origin = .ack n → [byte] = RelayFrames.probeAck.toBeBytes

theorem Origin.matches_request (byte : UInt8) : Origin.Matches .request byte := by
  intro n h
  cases h

/-- The accounts tell what has happened. -/
structure Balanced (s : State) (g : Accounts) : Prop where
  history : HasHistory s
  bytes : ∀ i, List.Forall₂ Origin.Matches (g.streams i).unread (s.channels i).unread
  order : ∀ i, (g.streams i).order = List.range (g.streams i).acks
  asked : ∀ t i, (s.pc t).awaitsAck = some i → g.number t < (g.streams i).syncs.length
  distinct : ∀ t u i, (s.pc t).awaitsAck = some i → (s.pc u).awaitsAck = some i →
    g.number t = g.number u → t = u
  registered : ∀ i, (g.streams i).syncs ≠ [] → ∃ connMd, s.Settled connMd ∧ connMd.stream = i
  received : ∀ i, ∀ n < (g.streams i).acks,
    ∃ e, (g.streams i).syncs[n]? = some e ∧ e ≤ (s.channels i).flushed
  unsent : ∀ t id connMd, s.pc t = .command .probe id connMd .flush →
    ∃ e, (g.streams connMd.stream).syncs[g.number t]? = some e ∧
      (s.channels connMd.stream).flushed < e
  empty : ∀ t id connMd buffer phase, s.pc t = .ack id connMd buffer phase → buffer.bytes = []
  readers : ∀ i n origin, (.probe n, origin) ∈ (g.streams i).taken →
    n < (g.streams i).syncs.length

theorem Balanced.init : Balanced State.init Accounts.new where
  history := hasHistory_init
  bytes _ := .nil
  order _ := rfl
  asked _ _ h := nomatch h
  distinct _ _ _ h := nomatch h
  registered _ h := absurd rfl h
  received _ _ h := absurd h (Nat.not_lt_zero _)
  unsent _ _ _ h := nomatch h
  empty _ _ _ _ _ h := nomatch h
  readers _ _ _ h := absurd h List.not_mem_nil

/-- What is said of the unread bytes stays true. -/
theorem Balanced.bytes_step (hb : Balanced s g) (hstep : step cfg s a = some s') (i : StreamId) :
    List.Forall₂ Origin.Matches ((record s a g).streams i).unread (s'.channels i).unread := by
  rw [unread_step hstep i]
  refine List.rel_append (List.forall₂_drop _ (hb.bytes i)) ?_
  cases a with
  | send j bytes =>
      by_cases hj : i = j
      · simp only [Action.origins, Action.brings, if_pos hj]
        clear hstep
        induction bytes with
        | nil => exact .nil
        | cons b rest ih => exact .cons (Origin.matches_request b) ih
      · simp only [Action.origins, Action.brings, if_neg hj]
        exact .nil
  | answer j =>
      by_cases hj : i = j
      · simp only [Action.origins, Action.brings, if_pos hj]
        exact .cons (fun _ _ => rfl) .nil
      · simp only [Action.origins, Action.brings, if_neg hj]
        exact .nil
  | _ => exact .nil

/-- The acks that come in with an action get the next number. -/
theorem origins_numbers (g : Accounts) (a : Action) (i : StreamId) :
    List.range (g.streams i).acks ++ (a.origins g i).filterMap Origin.number =
      List.range ((g.streams i).acks + a.newAcks i) := by
  cases a with
  | send j bytes =>
      have hnone : ∀ bytes : List UInt8,
          (bytes.map fun _ => Origin.request).filterMap Origin.number = [] := by
        intro bytes
        induction bytes with
        | nil => rfl
        | cons b rest ih => exact ih
      by_cases hj : i = j
      · rw [Action.origins, if_pos hj, hnone, List.append_nil]
        rfl
      · rw [Action.origins, if_neg hj]
        exact List.append_nil _
  | answer j =>
      by_cases hj : i = j
      · rw [Action.origins, if_pos hj, Action.newAcks, if_pos hj, List.range_succ]
        rfl
      · rw [Action.origins, if_neg hj, Action.newAcks, if_neg hj]
        exact List.append_nil _
  | _ => exact List.append_nil _

/-- The acks stay in order. -/
theorem Balanced.order_step (hb : Balanced s g) (a : Action) (i : StreamId) :
    ((record s a g).streams i).order = List.range ((record s a g).streams i).acks := by
  rw [record_acks, ← origins_numbers, ← hb.order i, Account.order, Account.order,
    ← List.filterMap_append]
  refine congrArg _ ?_
  show ((g.streams i).taken ++ _).map Prod.snd ++ (_ ++ _) = _
  rw [List.map_append, List.map_map, List.append_assoc, ← List.append_assoc _ _ (a.origins g i),
    show (Prod.snd ∘ fun o => (a.reader s g, o)) = id from rfl, List.map_id,
    List.take_append_drop, List.append_assoc]

/-- An action that takes bytes from a stream is a read of it. -/
theorem takes_cases (h : a.takes s i ≠ 0) :
    ∃ t n elapsed, a = .read t n elapsed ∧ (s.pc t).reads t = some i ∧ a.takes s i = n := by
  cases a with
  | read t n elapsed =>
      by_cases hreads : (s.pc t).reads t = some i
      · exact ⟨t, n, elapsed, rfl, hreads, if_pos hreads⟩
      · exact absurd (if_neg hreads) h
  | _ => exact absurd rfl h

/-- Who has read what after a step. -/
theorem mem_taken_step {reader : Reader} {origin : Origin} :
    (reader, origin) ∈ ((record s a g).streams i).taken ↔
      (reader, origin) ∈ (g.streams i).taken ∨
        reader = a.reader s g ∧ origin ∈ (g.streams i).unread.take (a.takes s i) := by
  show _ ∈ (g.streams i).taken ++ _ ↔ _
  rw [List.mem_append, List.mem_map]
  refine or_congr Iff.rfl ⟨?_, ?_⟩
  · rintro ⟨o, ho, heq⟩
    cases heq
    exact ⟨rfl, ho⟩
  · rintro ⟨rfl, ho⟩
    exact ⟨origin, ho, rfl⟩

/-- A probe that reads is one that waits for its ack. -/
theorem reader_probe {n : ℕ} (h : .probe n = a.reader s g) (htakes : a.takes s i ≠ 0) :
    ∃ t id connMd buffer k elapsed, a = .read t k elapsed ∧
      s.pc t = .ack id connMd buffer .read ∧ connMd.stream = i ∧ g.number t = n := by
  obtain ⟨t, k, elapsed, rfl, hreads, _⟩ := takes_cases htakes
  rcases Pc.reads_cases hreads with ⟨hpc, _⟩ | ⟨id, connMd, buffer, hpc, hi⟩
  · rw [Action.reader, hpc] at h
    cases h
  · rw [Action.reader, hpc] at h
    cases h
    exact ⟨t, id, connMd, buffer, k, elapsed, rfl, hpc, hi, rfl⟩

theorem takes_of_mem {origin : Origin} (h : origin ∈ (g.streams i).unread.take (a.takes s i)) :
    a.takes s i ≠ 0 := by
  intro hzero
  rw [hzero] at h
  cases h

theorem Balanced.asked_step (hb : Balanced s g) (hstep : step cfg s a = some s')
    (h : (s'.pc t).awaitsAck = some i) :
    (record s a g).number t < ((record s a g).streams i).syncs.length := by
  rcases awaitsAck_step (g := g) hstep h with ⟨hold, hnumber⟩ | hsync
  · rw [hnumber]
    exact Nat.lt_of_lt_of_le (hb.asked t i hold) (record_syncs_grow s a g i).length_le
  · obtain ⟨hsyncs, hnumber⟩ := record_sync (g := g) hsync
    rw [hsyncs, hnumber, List.length_append]
    exact Nat.lt_succ_self _

theorem Balanced.distinct_step (hb : Balanced s g) (hstep : step cfg s a = some s')
    (ht : (s'.pc t).awaitsAck = some i) (hu : (s'.pc u).awaitsAck = some i)
    (heq : (record s a g).number t = (record s a g).number u) : t = u := by
  rcases awaitsAck_step (g := g) hstep ht with ⟨hold, hnumber⟩ | hsync
  · rcases awaitsAck_step (g := g) hstep hu with ⟨hold', hnumber'⟩ | hsync'
    · exact hb.distinct t u i hold hold' (by rw [← hnumber, heq, hnumber'])
    · have hlt := hb.asked t i hold
      rw [← hnumber, heq, (record_sync hsync').2] at hlt
      exact absurd hlt (Nat.lt_irrefl _)
  · rcases awaitsAck_step (g := g) hstep hu with ⟨hold', hnumber'⟩ | hsync'
    · have hlt := hb.asked u i hold'
      rw [← hnumber', ← heq, (record_sync hsync).2] at hlt
      exact absurd hlt (Nat.lt_irrefl _)
    · rw [hsync] at hsync'
      cases hsync'
      rfl

theorem Balanced.registered_step (hb : Balanced s g) (hstep : step cfg s a = some s')
    (h : ((record s a g).streams i).syncs ≠ []) :
    ∃ connMd, s'.Settled connMd ∧ connMd.stream = i := by
  have hold : ∃ connMd, s.Settled connMd ∧ connMd.stream = i := by
    by_cases hsync : ∃ t, a.sync s = some (t, i)
    · obtain ⟨t, hsync⟩ := hsync
      exact settled_of_sync hb.history hsync
    · rw [record_syncs_ne fun t ht => hsync ⟨t, ht⟩] at h
      exact hb.registered i h
  obtain ⟨connMd, hsettled, hi⟩ := hold
  obtain ⟨_, h'⟩ := hb.history
  exact ⟨connMd, settled_step h' hstep hsettled, hi⟩

/-- The SYNCs that are written already keep their place. -/
theorem syncs_getElem {n e : ℕ} (h : (g.streams i).syncs[n]? = some e) :
    ((record s a g).streams i).syncs[n]? = some e := by
  obtain ⟨hn, he⟩ := List.getElem?_eq_some_iff.mp h
  exact (List.getElem?_append_left hn).trans h

theorem Balanced.received_step (hb : Balanced s g) (horder : a.InOrder s g)
    (hstep : step cfg s a = some s') {n : ℕ} (hn : n < ((record s a g).streams i).acks) :
    ∃ e, ((record s a g).streams i).syncs[n]? = some e ∧ e ≤ (s'.channels i).flushed := by
  have hle : (s.channels i).flushed ≤ (s'.channels i).flushed := by
    rcases flushed_step hstep i with hsame | ⟨hle, _⟩
    · exact le_of_eq hsame.symm
    · exact hle
  have hold : ∃ e, (g.streams i).syncs[n]? = some e ∧ e ≤ (s.channels i).flushed := by
    by_cases hlt : n < (g.streams i).acks
    · exact hb.received i n hlt
    · cases a with
      | answer j =>
          rw [record_acks, Action.newAcks] at hn
          by_cases hj : i = j
          · subst hj
            rw [if_pos rfl] at hn
            rw [Nat.le_antisymm (Nat.le_of_lt_succ hn) (Nat.le_of_not_lt hlt)]
            exact horder
          · rw [if_neg hj] at hn
            exact absurd hn hlt
      | _ => exact absurd hn hlt
  obtain ⟨e, he, hflushed⟩ := hold
  exact ⟨e, syncs_getElem he, hflushed.trans hle⟩

/-- A write sends nothing of its own bytes. -/
theorem flushed_writeAll (hstep : step cfg s (.writeAll t none) = some s') (i : StreamId) :
    (s'.channels i).flushed ≤ (s.channels i).written.length := by
  cases step_cases hstep with
  | @write t j frame hwrites hframe =>
      by_cases hi : i = j
      · subst hi
        rw [State.channels_onChannel_self]
        exact (writeAll_flushed _ _).2
      · rw [State.channels_onChannel_ne _ _ hi]
        exact (s.channels i).flushed_le

theorem Balanced.unsent_step (hb : Balanced s g) (hstep : step cfg s a = some s') {id : PeerId}
    {connMd : PeerConnectionMetadata} (hpc' : s'.pc t = .command .probe id connMd .flush) :
    ∃ e, ((record s a g).streams connMd.stream).syncs[(record s a g).number t]? = some e ∧
      (s'.channels connMd.stream).flushed < e := by
  rcases tasks_step hstep t with ⟨_, hm⟩ | ⟨ht, hsame⟩ | ⟨_, _, address, hnew⟩
  · rw [State.pc] at hpc'
    generalize s'.tasks t = task' at hm hpc'
    cases hm with
    | writeCommand hpc =>
        cases hpc'
        -- the SYNC is the last of its stream, and none of it is sent yet
        have hsync : Action.sync s (.writeAll t none) = some (t, connMd.stream) := by
          rw [Action.sync, hpc]
          rfl
        obtain ⟨hsyncs, hnumber⟩ := record_sync (g := g) hsync
        rw [hsyncs, hnumber]
        refine ⟨_, List.getElem?_concat_length, ?_⟩
        refine Nat.lt_of_le_of_lt (flushed_writeAll hstep connMd.stream) ?_
        exact Nat.lt_add_of_pos_right (by decide)
    | endAck hpc hclosed hnext =>
        rcases hnext with ⟨_, rfl⟩ | ⟨_, rfl⟩
        · cases hpc'
        · cases hpc'
    | readReceive hpc hpos hn => cases metadata_of_dispatch hpc'
    | readAck hpc hpos hn =>
        rcases afterAck_cases _ _ _ _ with hd | ⟨_, hd⟩ | ⟨_, hd⟩
        all_goals cases hd.symm.trans hpc'
    | flushReply hpc => cases metadata_of_dispatch hpc'
    | _ => cases hpc'
  · have hpc : s.pc t = .command .probe id connMd .flush := by
      rw [← hpc', State.pc, State.pc, hsame]
    obtain ⟨e, he, hlt⟩ := hb.unsent t id connMd hpc
    rw [number_of_awaitsAck (i := connMd.stream) (by rw [hpc]; rfl)]
    refine ⟨e, syncs_getElem he, ?_⟩
    rcases flushed_step hstep connMd.stream with hflushed | ⟨_, u, hu, hholds⟩
    · rw [hflushed]
      exact hlt
    · -- whoever sends holds the mutex, which is the probe's
      obtain ⟨_, h'⟩ := hb.history
      have htu : u = t := h'.tidy.held.unique hholds (by rw [hpc]; rfl)
      exact absurd (htu ▸ hu) ht
  · rw [State.pc, hnew] at hpc'
    cases hpc'

theorem Balanced.readers_step (hb : Balanced s g) {n : ℕ} {origin : Origin}
    (h : (.probe n, origin) ∈ ((record s a g).streams i).taken) :
    n < ((record s a g).streams i).syncs.length := by
  refine Nat.lt_of_lt_of_le ?_ (record_syncs_grow s a g i).length_le
  rcases mem_taken_step.mp h with hold | ⟨hreader, hmem⟩
  · exact hb.readers i n origin hold
  · obtain ⟨t, id, connMd, buffer, k, elapsed, _, hpc, rfl, rfl⟩ :=
      reader_probe hreader (takes_of_mem hmem)
    exact hb.asked t connMd.stream (by rw [hpc]; rfl)

/-! ### Reading in turn -/

/-- The place of a number in the list of all is the number. -/
theorem length_of_range_eq {front back : List ℕ} {k n : ℕ}
    (h : front ++ n :: back = List.range k) : front.length = n ∧ n < k := by
  have hlt : front.length < k := by
    have hlen := congrArg List.length h
    rw [List.length_append, List.length_cons, List.length_range] at hlen
    omega
  have hget := congrArg (fun l => l[front.length]?) h
  simp only [List.getElem?_append_right le_rfl, Nat.sub_self, List.getElem?_cons_zero,
    List.getElem?_range hlt] at hget
  exact ⟨(Option.some.inj hget).symm, Option.some.inj hget ▸ hlt⟩

/-- The ack at the head of the unread bytes: its number is how many acks have been read. -/
theorem Balanced.head (hb : Balanced s g) {n : ℕ} {rest : List Origin}
    (h : (g.streams i).unread = .ack n :: rest) :
    (g.streams i).read = n ∧ n < (g.streams i).acks := by
  have horder := hb.order i
  rw [Account.order, h, List.filterMap_append] at horder
  exact length_of_range_eq horder

/-- The unread acks have different numbers. -/
theorem Balanced.unread_nodup (hb : Balanced s g) :
    ((g.streams i).unread.filterMap Origin.number).Nodup := by
  have hall : (List.range (g.streams i).acks).Nodup := List.nodup_range
  rw [← hb.order i, Account.order, List.filterMap_append] at hall
  exact (List.nodup_append.mp hall).2.1

/-- What is known of an ack that has come. -/
theorem Balanced.mem_acks (hb : Balanced s g) {n : ℕ} :
    n < (g.streams i).acks ↔
      (∃ reader, (reader, .ack n) ∈ (g.streams i).taken) ∨ .ack n ∈ (g.streams i).unread := by
  have hnumber : ∀ o : Origin, o.number = some n ↔ o = .ack n := by
    intro o
    cases o with
    | request => exact ⟨nofun, nofun⟩
    | ack m => exact ⟨fun h => congrArg _ (Option.some.inj h), fun h => by cases h; rfl⟩
  rw [← List.mem_range, ← hb.order i, Account.order, List.mem_filterMap]
  simp only [hnumber, List.mem_append, List.mem_map]
  constructor
  · rintro ⟨o, ⟨⟨reader, o'⟩, hmem, rfl⟩ | hmem, rfl⟩
    · exact Or.inl ⟨reader, hmem⟩
    · exact Or.inr hmem
  · rintro (⟨reader, hmem⟩ | hmem)
    · exact ⟨_, Or.inl ⟨_, hmem, rfl⟩, rfl⟩
    · exact ⟨_, Or.inr hmem, rfl⟩

/-- A step takes no more from a stream than there is. -/
theorem takes_le (hstep : step cfg s a = some s') (i : StreamId) :
    a.takes s i ≤ (s.channels i).unread.length := by
  cases step_cases hstep with
  | @read t j n elapsed hreads hpos hn hroom =>
      rw [Action.takes]
      split
      · rename_i hi
        cases hreads.symm.trans hi
        exact hn
      · exact Nat.zero_le _
  | readEnd hreads hempty hclosed =>
      rw [Action.takes, ite_self]
      exact Nat.zero_le _
  | _ => exact Nat.zero_le _

/-- The peer's own task does not read any more when the first ack has come. -/
theorem Balanced.acks_of_receive (hb : Balanced s g) {phase : ReadPhase}
    (hpc : s.pc i = .receive phase) : (g.streams i).acks = 0 := by
  by_contra hne
  obtain ⟨e, he, _⟩ := hb.received i 0 (Nat.pos_of_ne_zero hne)
  have hsyncs : (g.streams i).syncs ≠ [] := by
    intro hnil
    rw [hnil] at he
    cases he
  obtain ⟨connMd, hsettled, rfl⟩ := hb.registered i hsyncs
  exact hsettled.2.2 phase hpc

/-- **A read in turn.**  Where a task reads a stream in turn, it is the peer's own before any ack
has come, or a probe that reads its own ack and nothing else. -/
theorem Balanced.reading (hb : Balanced s g) (hturn : InTurn s g a)
    (hstep : step cfg s a = some s') (htakes : a.takes s i ≠ 0) :
    a.reader s g = .own ∧ (g.streams i).acks = 0 ∨
      ∃ t elapsed id connMd buffer rest, a = .read t 1 elapsed ∧ a.takes s i = 1 ∧
        a.reader s g = .probe (g.number t) ∧ s.pc t = .ack id connMd buffer .read ∧
          connMd.stream = i ∧ (g.streams i).unread = .ack (g.number t) :: rest := by
  obtain ⟨t, n, elapsed, rfl, hreads, hn⟩ := takes_cases htakes
  rcases Pc.reads_cases hreads with ⟨hpc, rfl⟩ | ⟨id, connMd, buffer, hpc, rfl⟩
  · left
    refine ⟨?_, hb.acks_of_receive hpc⟩
    rw [Action.reader, hpc]
    rfl
  · right
    rw [hn] at htakes
    obtain ⟨rfl, hhead, hread⟩ :=
      hturn.reads t n elapsed id connMd buffer rfl hpc (Nat.pos_of_ne_zero htakes)
    have hle := takes_le hstep connMd.stream
    rw [hn, ← (hb.bytes connMd.stream).length_eq] at hle
    cases hunread : (g.streams connMd.stream).unread with
    | nil =>
        rw [hunread] at hle
        exact absurd hle (Nat.not_succ_le_zero 0)
    | cons origin rest =>
        cases origin with
        | request => exact absurd (congrArg List.head? hunread) hhead
        | ack m =>
            rw [(hb.head hunread).1] at hread
            refine ⟨t, elapsed, id, connMd, buffer, rest, rfl, hn, ?_, hpc, rfl, by rw [hread]⟩
            rw [Action.reader, hpc]
            rfl

/-- What a probe does with a ProbeAck. -/
theorem afterAck_probeAck (id : PeerId) (connMd : PeerConnectionMetadata) (elapsed : Duration)
    (capacity : ℕ) : afterAck id connMd elapsed ⟨capacity, RelayFrames.probeAck.toBeBytes⟩ =
      .reply (.probeResult (some ⟨id, connMd.ipAddr, elapsed⟩)) .lock := rfl

/-- A probe that reads its ack, and nothing else, replies with its peer's address. -/
theorem Balanced.hears (hb : Balanced s g) {id : PeerId} {connMd : PeerConnectionMetadata}
    {buffer : BytesMut} {elapsed : Duration} {n : ℕ} {rest : List Origin}
    (hstep : step cfg s (.read t 1 elapsed) = some s') (hpc : s.pc t = .ack id connMd buffer .read)
    (hunread : (g.streams connMd.stream).unread = .ack n :: rest) :
    s'.pc t = .reply (.probeResult (some ⟨id, connMd.ipAddr, elapsed⟩)) .lock := by
  have hbytes := hb.bytes connMd.stream
  rw [hunread] at hbytes
  have hm := moves_cases hstep rfl
  rw [State.pc]
  generalize s'.tasks t = task' at hm
  cases hm with
  | readAck hpc' hpos hn =>
      cases hpc.symm.trans hpc'
      cases hchannel : (s.channels connMd.stream).unread with
      | nil =>
          rw [hchannel] at hbytes
          cases hbytes
      | cons byte bytes =>
          rw [hchannel] at hbytes
          cases hbytes with
          | cons hmatches _ =>
              have hextend : buffer.extend ((byte :: bytes).take 1) =
                  ⟨buffer.capacity, RelayFrames.probeAck.toBeBytes⟩ := by
                rw [← hmatches n rfl, BytesMut.extend, hb.empty t id connMd buffer .read hpc]
                rfl
              show afterAck id connMd elapsed _ = _
              rw [hextend, afterAck_probeAck]
  | readReceive hpc' hpos hn => cases hpc.symm.trans hpc'
  | commandFailed hpc' ha => cases hpc.symm.trans hpc'
  | replyFailed hpc' ha => cases hpc.symm.trans hpc'

theorem Balanced.empty_step (hb : Balanced s g) (hturn : InTurn s g a)
    (hstep : step cfg s a = some s') {id : PeerId} {connMd : PeerConnectionMetadata}
    {buffer : BytesMut} {phase : ReadPhase} (hpc' : s'.pc t = .ack id connMd buffer phase) :
    buffer.bytes = [] := by
  rcases tasks_step hstep t with ⟨_, hm⟩ | ⟨_, hsame⟩ | ⟨_, _, address, hnew⟩
  · have hpc₀ := hpc'
    rw [State.pc] at hpc'
    generalize s'.tasks t = task' at hm hpc'
    cases hm with
    | lockAck hpc =>
        cases hpc'
        exact hb.empty t _ _ _ _ hpc
    | flushProbe hpc =>
        cases hpc'
        rfl
    | @readAck id₀ connMd₀ buffer₀ n elapsed hpc hpos hn =>
        have hreads : (s.pc t).reads t = some connMd₀.stream := by
          rw [hpc]
          rfl
        have htakes : (Action.read t n elapsed).takes s connMd₀.stream = n := if_pos hreads
        rcases hb.reading hturn hstep (by rw [htakes]; exact Nat.ne_of_gt hpos) with
          ⟨hreader, _⟩ | ⟨u, elapsed', id', connMd', buffer', rest, hread, _, _, hack, _, hunread⟩
        · rw [Action.reader, hpc] at hreader
          cases hreader
        · cases hread
          cases hpc.symm.trans hack
          cases hpc₀.symm.trans (hb.hears hstep hpc hunread)
    | endAck hpc hclosed hnext =>
        rcases hnext with ⟨_, rfl⟩ | ⟨_, rfl⟩
        · cases hpc'
        · cases hpc'
    | readReceive hpc hpos hn => cases metadata_of_dispatch hpc'
    | flushReply hpc => cases metadata_of_dispatch hpc'
    | _ => cases hpc'
  · rw [State.pc, hsame] at hpc'
    exact hb.empty t _ _ _ _ hpc'
  · rw [State.pc, hnew] at hpc'
    cases hpc'

/-- **The accounts stay right.** -/
theorem balanced_step (hb : Balanced s g) (hturn : InTurn s g a) (horder : a.InOrder s g)
    (hstep : step cfg s a = some s') : Balanced s' (record s a g) where
  history := hasHistory_step hb.history hstep
  bytes i := hb.bytes_step hstep i
  order i := hb.order_step a i
  asked _ _ h := hb.asked_step hstep h
  distinct _ _ _ ht hu heq := hb.distinct_step hstep ht hu heq
  registered _ h := hb.registered_step hstep h
  received _ _ hn := hb.received_step horder hstep hn
  unsent _ _ _ hpc := hb.unsent_step hstep hpc
  empty _ _ _ _ _ hpc := hb.empty_step hturn hstep hpc
  readers _ _ _ h := hb.readers_step h

/-- A read of nothing finds nothing. -/
theorem readEnd_empty {elapsed : Duration} (hstep : step cfg s (.read t 0 elapsed) = some s')
    (hreads : (s.pc t).reads t = some i) : (s.channels i).unread = [] := by
  generalize ha : Action.read t 0 elapsed = a at hstep
  cases step_cases hstep with
  | readEnd hreads' hempty hclosed =>
      cases ha
      cases hreads.symm.trans hreads'
      exact hempty
  | read hreads' hpos hn hroom =>
      cases ha
      exact absurd hpos (Nat.lt_irrefl 0)
  | _ => cases ha

/-- An ack that comes in moves no task. -/
theorem pc_answer (hstep : step cfg s (.answer i) = some s') : s'.pc t = s.pc t := by
  cases step_cases hstep with
  | answer hi hopen => rfl

/-! ### One step -/

/-- The acks that are there are all that have come, where nobody has read one. -/
theorem Balanced.no_ack (hb : Balanced s g) (hacks : (g.streams i).acks = 0) {origin : Origin}
    (hmem : origin ∈ (g.streams i).unread) : origin = .request := by
  cases origin with
  | request => rfl
  | ack n =>
      have hlt := hb.mem_acks.mpr (Or.inr hmem)
      rw [hacks] at hlt
      exact absurd hlt (Nat.not_lt_zero n)

theorem Balanced.rightful_step (hb : Balanced s g) (hd : AcksDelivered s g) (hturn : InTurn s g a)
    (hstep : step cfg s a = some s') {reader : Reader} {origin : Origin}
    (h : (reader, origin) ∈ ((record s a g).streams i).taken) : Rightful reader origin := by
  rcases mem_taken_step.mp h with hold | ⟨rfl, hmem⟩
  · exact hd.rightful i reader origin hold
  · rcases hb.reading hturn hstep (takes_of_mem hmem) with
      ⟨hreader, hacks⟩ | ⟨t, _, _, _, _, rest, _, htakes, hreader, _, _, hunread⟩
    · rw [hreader, hb.no_ack hacks (List.mem_of_mem_take hmem)]
      exact .request
    · rw [htakes, hunread] at hmem
      rw [hreader, List.mem_singleton.mp hmem]
      exact .ack _

/-- A probe waits on for its ack, or the ack has not come, or the probe reads. -/
theorem Balanced.awaits_on (hb : Balanced s g) (hstep : step cfg s a = some s')
    (h : (s.pc t).awaitsAck = some i) (hacks : g.number t < (g.streams i).acks) :
    (s'.pc t).awaitsAck = some i ∨ ∃ n elapsed, a = .read t n elapsed ∧
      (s.pc t).reads t = some i := by
  rcases tasks_step hstep t with ⟨_, hm⟩ | ⟨_, hsame⟩ | ⟨hnew, _, _⟩
  · rcases hm.awaitsAck_or h with hon | ⟨id, connMd, hpc, rfl⟩ |
      ⟨id, connMd, buffer, n, elapsed, hpc, rfl, rfl⟩
    · exact Or.inl hon
    · -- its SYNC is not sent yet, so the peer has not answered it
      obtain ⟨e, he, hle⟩ := hb.received connMd.stream _ hacks
      obtain ⟨e', he', hlt⟩ := hb.unsent t id connMd hpc
      cases he.symm.trans he'
      exact absurd hle (Nat.not_le.mpr hlt)
    · exact Or.inr ⟨n, elapsed, rfl, by rw [hpc]; rfl⟩
  · rw [State.pc, hsame]
    exact Or.inl h
  · obtain ⟨_, h'⟩ := hb.history
    rw [h'.tidy.idle t (le_of_eq hnew.symm)] at h
    cases h

theorem Balanced.kept_step (hb : Balanced s g) (hd : AcksDelivered s g) (hturn : InTurn s g a)
    (hstep : step cfg s a = some s') {n : ℕ} (hn : n < ((record s a g).streams i).acks) :
    (.probe n, .ack n) ∈ ((record s a g).streams i).taken ∨
      .ack n ∈ ((record s a g).streams i).unread ∧
        ∃ t, (s'.pc t).awaitsAck = some i ∧ (record s a g).number t = n := by
  by_cases hold : n < (g.streams i).acks
  · rcases hd.kept i n hold with htaken | ⟨hunread, t, hawaits, rfl⟩
    · exact Or.inl (mem_taken_step.mpr (Or.inl htaken))
    · by_cases htakes : a.takes s i = 0
      · right
        have hthere : .ack (g.number t) ∈ ((record s a g).streams i).unread := by
          refine List.mem_append_left _ ?_
          rw [htakes]
          exact hunread
        refine ⟨hthere, t, ?_, number_of_awaitsAck hawaits⟩
        rcases hb.awaits_on hstep hawaits hold with hon | ⟨k, elapsed, rfl, hreads⟩
        · exact hon
        · -- a read of nothing: the peer has closed, and nothing is left
          have hk : k = 0 := by
            rw [← htakes]
            exact (if_pos hreads).symm
          subst hk
          have hempty := readEnd_empty hstep hreads
          have hbytes := hb.bytes i
          rw [hempty] at hbytes
          rw [List.forall₂_nil_right_iff.mp hbytes] at hunread
          cases hunread
      · rcases hb.reading hturn hstep htakes with
          ⟨_, hacks⟩ | ⟨u, elapsed, id, connMd, buffer, rest, ha, htakes, hreader, hpc, hi, hhead⟩
        · rw [hacks] at hold
          exact absurd hold (Nat.not_lt_zero _)
        · by_cases hu : g.number t = g.number u
          · left
            refine mem_taken_step.mpr (Or.inr ⟨by rw [hreader, hu], ?_⟩)
            rw [htakes, hhead, hu]
            exact List.mem_singleton.mpr rfl
          · right
            have hthere : .ack (g.number t) ∈ ((record s a g).streams i).unread := by
              refine List.mem_append_left _ ?_
              rw [htakes, hhead]
              rw [hhead] at hunread
              rcases List.mem_cons.mp hunread with heq | hrest
              · exact absurd (Origin.ack.inj heq) hu
              · exact hrest
            refine ⟨hthere, t, ?_, number_of_awaitsAck hawaits⟩
            rcases hb.awaits_on hstep hawaits hold with hon | ⟨k, elapsed', hread, _⟩
            · exact hon
            · rw [hread] at ha
              cases ha
              exact absurd rfl hu
  · right
    cases a with
    | answer j =>
        rw [record_acks, Action.newAcks] at hn
        by_cases hj : i = j
        · subst hj
          rw [if_pos rfl] at hn
          have hlast : n = (g.streams i).acks :=
            Nat.le_antisymm (Nat.le_of_lt_succ hn) (Nat.le_of_not_lt hold)
          subst hlast
          obtain ⟨t, hawaits, hnumber⟩ := hturn.answers i rfl
          refine ⟨List.mem_append_right _ ?_, t, ?_, ?_⟩
          · rw [Action.origins, if_pos rfl]
            exact List.mem_singleton.mpr rfl
          · rw [pc_answer hstep]
            exact hawaits
          · rw [number_of_awaitsAck hawaits, hnumber]
        · rw [if_neg hj] at hn
          exact absurd hn hold
    | _ => exact absurd hn hold

theorem Balanced.heard_step (hb : Balanced s g) (hd : AcksDelivered s g) (hturn : InTurn s g a)
    (hstep : step cfg s a = some s') (h : (s'.pc t).awaitsAck = some i) (origin : Origin) :
    (.probe ((record s a g).number t), origin) ∉ ((record s a g).streams i).taken := by
  intro hmem
  rcases awaitsAck_step (g := g) hstep h with ⟨hold, hnumber⟩ | hsync
  · rw [hnumber] at hmem
    rcases mem_taken_step.mp hmem with htaken | ⟨hreader, hnew⟩
    · exact hd.heard t i hold origin htaken
    · rcases hb.reading hturn hstep (takes_of_mem hnew) with
        ⟨hown, _⟩ | ⟨u, elapsed, id, connMd, buffer, rest, rfl, _, hprobe, hpc, rfl, hunread⟩
      · rw [hown] at hreader
        cases hreader
      · -- the reader is this probe, and it has its ack now
        rw [hprobe] at hreader
        have htu : t = u := hb.distinct t u _ hold (by rw [hpc]; rfl) (Reader.probe.inj hreader)
        subst htu
        rw [hb.hears hstep hpc hunread] at h
        cases h
  · rw [(record_sync hsync).2] at hmem
    rcases mem_taken_step.mp hmem with htaken | ⟨_, hnew⟩
    · exact absurd (hb.readers i _ origin htaken) (Nat.lt_irrefl _)
    · obtain ⟨_, _, _, hread, _⟩ := takes_cases (takes_of_mem hnew)
      cases (sync_cases hsync).1.symm.trans hread

/-- In turn, every ack goes where it should. -/
theorem acksDelivered_of_inTurn (hb : Balanced s g) (hd : AcksDelivered s g)
    (hturn : InTurn s g a) (hstep : step cfg s a = some s') :
    AcksDelivered s' (record s a g) where
  rightful _ _ _ h := hb.rightful_step hd hturn hstep h
  kept _ _ hn := hb.kept_step hd hturn hstep hn
  heard _ _ h origin := hb.heard_step hd hturn hstep h origin

/-- Where every ack goes where it should, the step was in turn. -/
theorem inTurn_of_acksDelivered (hb : Balanced s g) (hstep : step cfg s a = some s')
    (hd' : AcksDelivered s' (record s a g)) : InTurn s g a where
  reads := by
    rintro t n elapsed id connMd buffer rfl hpc hpos
    have htakes : (Action.read t n elapsed).takes s connMd.stream = n :=
      if_pos (by rw [hpc]; rfl)
    have hreader : (Action.read t n elapsed).reader s g = .probe (g.number t) := by
      rw [Action.reader, hpc]
      rfl
    -- every byte that the probe reads belongs to its own ack
    have hown : ∀ o ∈ (g.streams connMd.stream).unread.take n, o = .ack (g.number t) := by
      intro o ho
      have hright := hd'.rightful connMd.stream _ o (mem_taken_step.mpr (Or.inr
        ⟨rfl, by rwa [htakes]⟩))
      rw [hreader] at hright
      cases hright
      rfl
    have hle := takes_le hstep connMd.stream
    rw [htakes, ← (hb.bytes connMd.stream).length_eq] at hle
    cases hunread : (g.streams connMd.stream).unread with
    | nil =>
        rw [hunread] at hle
        exact absurd hpos (Nat.not_lt.mpr hle)
    | cons first rest =>
        rw [hunread] at hown hle
        obtain ⟨m, rfl⟩ := Nat.exists_eq_succ_of_ne_zero (Nat.ne_of_gt hpos)
        have hfirst := hown first (List.mem_cons_self)
        subst hfirst
        refine ⟨congrArg Nat.succ ?_, nofun, (hb.head hunread).1⟩
        -- there is only one byte of this ack
        by_contra hm
        obtain ⟨m', rfl⟩ := Nat.exists_eq_succ_of_ne_zero hm
        cases rest with
        | nil => exact absurd hle (by simp)
        | cons second rest =>
            have hsecond := hown second (List.mem_cons_of_mem _ List.mem_cons_self)
            subst hsecond
            have hnodup := hb.unread_nodup (i := connMd.stream)
            rw [hunread] at hnodup
            exact absurd List.mem_cons_self (List.nodup_cons.mp hnodup).1
  answers := by
    rintro i rfl
    have hlt : (g.streams i).acks < ((record s (.answer i) g).streams i).acks := by
      rw [record_acks, Action.newAcks, if_pos rfl]
      exact Nat.lt_succ_self _
    rcases hd'.kept i _ hlt with htaken | ⟨_, t, hawaits, hnumber⟩
    · rcases mem_taken_step.mp htaken with hold | ⟨_, hnew⟩
      · exact absurd (hb.mem_acks.mpr (Or.inl ⟨_, hold⟩)) (Nat.lt_irrefl _)
      · exact absurd rfl (takes_of_mem hnew)
    · rw [pc_answer hstep] at hawaits
      rw [number_of_awaitsAck hawaits] at hnumber
      exact ⟨t, hawaits, hnumber⟩

end

/-- **When every ack goes to its probe.**  In a run of any number of connections, in any order of
their steps, whose peers answer the SYNCs that they get in order: no ack is lost or read by
another, and no probe reads a request, exactly if the probes read in turn. -/
theorem acksDelivered_iff (cfg : Config) (as : List Action) :
    InStates (answeringStep cfg) (State.init, Accounts.new) as
        (fun p => AcksDelivered p.1 p.2) ↔
      AtSteps (answeringStep cfg) (State.init, Accounts.new) as fun p a => InTurn p.1 p.2 a := by
  have hinit : Balanced State.init Accounts.new ∧ AcksDelivered State.init Accounts.new := by
    refine ⟨Balanced.init, ?_, ?_, ?_⟩
    · exact fun _ _ _ h => absurd h List.not_mem_nil
    · exact fun _ _ h => absurd h (Nat.not_lt_zero _)
    · exact fun _ _ _ _ => List.not_mem_nil
  refine @good_along_iff (State × Accounts) Action (answeringStep cfg)
    (fun p => Balanced p.1 p.2) _ _ _ hinit ?_ ?_ as
  · rintro ⟨s, g⟩ a ⟨s', g'⟩ hb _ hturn hstep
    obtain ⟨horder, hstep, rfl⟩ := answeringStep_some.mp hstep
    exact balanced_step hb hturn horder hstep
  · rintro ⟨s, g⟩ a ⟨s', g'⟩ hb hd hstep
    obtain ⟨_, hstep, rfl⟩ := answeringStep_some.mp hstep
    exact ⟨inTurn_of_acksDelivered hb hstep,
      fun hturn => acksDelivered_of_inTurn hb hd hturn hstep⟩

/-- A peer registers, and two others probe it.  It answers the first SYNC, and the second probe
is the first to take the mutex again. -/
def overtakenRun : List Action :=
  [.connect (.v4 (Ipv4Addr.new 10 0 0 1)), .connect (.v4 (Ipv4Addr.new 10 0 0 2)),
    .connect (.v4 (Ipv4Addr.new 10 0 0 3)),
    .send 0 (RelayFrames.register PeerId.zero).toBeBytes,
    .send 1 (RelayFrames.probe PeerId.zero).toBeBytes,
    .send 2 (RelayFrames.probe PeerId.zero).toBeBytes,
    .lock 0, .read 0 65 (Duration.fromMillis 0), .access 0,
    .lock 1, .read 1 65 (Duration.fromMillis 0), .access 1,
    .lock 1, .writeAll 1 none, .flush 1 none,
    .lock 2, .read 2 65 (Duration.fromMillis 0), .access 2,
    .lock 2, .writeAll 2 none, .flush 2 none,
    .answer 0, .lock 2, .read 2 1 (Duration.fromMillis 0), .answer 0]

/-- The second probe reads the ack of the first one. -/
theorem overtakenRun_misdelivers :
    ¬ InStates (answeringStep ⟨BytesMut.reserve, fun _ => 0⟩) (State.init, Accounts.new)
      overtakenRun fun p => AcksDelivered p.1 p.2 := by
  intro hall
  have hend : (runFrom (answeringStep ⟨BytesMut.reserve, fun _ => 0⟩) (State.init, Accounts.new)
      overtakenRun).map (fun p => (p.2.streams 0).taken.contains (.probe 1, .ack 0))
        = some true := by decide +kernel
  obtain ⟨p, hp, hend⟩ := Option.map_eq_some_iff.mp hend
  have hmem : (Reader.probe 1, Origin.ack 0) ∈ (p.2.streams 0).taken :=
    List.contains_iff_mem.mp hend
  cases (hall overtakenRun (List.prefix_refl _) p hp).rightful 0 _ _ hmem

end Pcopy.Relay
