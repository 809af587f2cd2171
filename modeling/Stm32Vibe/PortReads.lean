-- The tool reads a port that gives its bytes late and in parts. Where no deadline
-- passes, it reads what it would read if all bytes were there.
import Stm32Vibe.Lib.PolledSource
import Stm32Vibe.HostPort

namespace stm32_vibe.port_reads

open polled_source little_endian update_protocol uart_update
open host_port hiding read_exact read_after_sync read_packet_loop read_packet expect_ack

/-! ## Reading with deadlines -/

/-- The reads that the deadlines of `read_packet` leave: one entry for each, with the
turns that the port has for it. -/
structure Deadlines where
  sync : List Nat
  header : List Nat
  tail : List Nat

section
variable {σ : Type} (source : Source σ UInt8)

def read_exact (size : Nat) (patience : List Nat) (state : σ) :
    Except ToolError (List UInt8) × σ :=
  let out := gather source size patience [] state
  (out.1.elim (.error (.TimeoutError "timed out waiting for bootloader response")) .ok, out.2)

/-- What is done after a read, unless it raised. -/
def andThen {α β τ : Type} (out : Except ToolError α × τ)
    (next : α → τ → Except ToolError β × τ) : Except ToolError β × τ :=
  match out with
  | (.error error, state) => (.error error, state)
  | (.ok value, state) => next value state

/-- What `read_packet` does once the sync is in its window. -/
def read_after_sync (deadlines : Deadlines) (window : List UInt8) (state : σ) :
    Except ToolError UpdatePacket × σ :=
  andThen (read_exact source (UPDATE_PROTOCOL_HEADER_SIZE - 2) deadlines.header state)
    fun rest state =>
      let header := window ++ rest
      let payload_len := read_u16_le header 6
      if payload_len.toNat > MAX_PAYLOAD then
        (.error (.UpdateError "response payload too large"), state)
      else
        andThen (read_exact source (payload_len.toNat + UPDATE_PROTOCOL_CRC_SIZE) deadlines.tail
          state) fun tail state => (decode_packet (header ++ tail), state)

/-- The window with the next byte: the last two. -/
def slide (window : List UInt8) (byte : UInt8) : List UInt8 :=
  let window := window ++ [byte]
  if window.length > 2 then window.drop 1 else window

def read_packet_loop (deadlines : Deadlines) :
    List Nat → List UInt8 → σ → Except ToolError UpdatePacket × σ
  | [], _, state => (.error (.TimeoutError "timed out waiting for packet sync"), state)
  | turns :: later, window, state =>
    let byte := source.poll 1 turns state
    if byte.1 = [] then read_packet_loop deadlines later window byte.2
    else
      let window := slide window (byte.1.headD 0)
      if window = write_u16_le UPDATE_PROTOCOL_SYNC then
        read_after_sync source deadlines window byte.2
      else read_packet_loop deadlines later window byte.2

def read_packet (deadlines : Deadlines) (state : σ) : Except ToolError UpdatePacket × σ :=
  read_packet_loop source deadlines deadlines.sync [] state

def expect_ack (deadlines : Deadlines) (command : UInt8) (session_id sequence : UInt32)
    (state : σ) : Except ToolError Unit × σ :=
  andThen (read_packet source deadlines state) fun ack state =>
    (check_ack command session_id sequence ack, state)

/-- One packet after the other. -/
def read_packets : List Deadlines → σ → List (Except ToolError UpdatePacket) × σ
  | [], state => ([], state)
  | deadlines :: later, state =>
    let out := read_packet source deadlines state
    let rest := read_packets later out.2
    (out.1 :: rest.1, rest.2)

/-! ## The port with all bytes -/

def TimedOut {α : Type} (result : Except ToolError α) : Prop :=
  ∃ message, result = .error (.TimeoutError message)

/-- The reads do what they do on the port with all bytes, or time out. With patience
they time out only where that port has too few bytes. -/
structure Refines {α : Type} (patient : Prop) (state : σ) (out : Except ToolError α × σ)
    (whole : Except ToolError α × Port) : Prop where
  suffix : source.upcoming out.2 <:+ source.upcoming state
  work : source.work out.2 ≤ source.work state
  result : TimedOut out.1 ∧ (patient → TimedOut whole.1) ∨
    whole = (out.1, source.upcoming out.2)

variable {source} {state : σ}

theorem host_read_after_sync (window : List UInt8) (port : Port) :
    host_port.read_after_sync window port =
      andThen (host_port.read_exact port (UPDATE_PROTOCOL_HEADER_SIZE - 2)) fun rest port =>
        let header := window ++ rest
        let payload_len := read_u16_le header 6
        if payload_len.toNat > MAX_PAYLOAD then
          (.error (.UpdateError "response payload too large"), port)
        else
          andThen (host_port.read_exact port (payload_len.toNat + UPDATE_PROTOCOL_CRC_SIZE))
            fun tail port => (decode_packet (header ++ tail), port) := by
  unfold host_port.read_after_sync
  generalize host_port.read_exact port (UPDATE_PROTOCOL_HEADER_SIZE - 2) = out
  obtain ⟨error | rest, later⟩ := out
  · rfl
  · dsimp only [andThen]
    by_cases hlarge : (read_u16_le (window ++ rest) 6).toNat > MAX_PAYLOAD
    · rw [if_pos hlarge, if_pos hlarge]
    · rw [if_neg hlarge, if_neg hlarge]
      generalize host_port.read_exact later _ = out
      obtain ⟨error | tail, last⟩ := out <;> rfl

theorem host_expect_ack (command : UInt8) (session_id sequence : UInt32) (port : Port) :
    host_port.expect_ack command session_id sequence port =
      andThen (host_port.read_packet port) fun ack port =>
        (check_ack command session_id sequence ack, port) := by
  unfold host_port.expect_ack
  generalize host_port.read_packet port = out
  obtain ⟨error | ack, later⟩ := out <;> rfl

theorem refines_same {α : Type} (patient : Prop) (result : Except ToolError α) :
    Refines source patient state (result, state) (result, source.upcoming state) :=
  ⟨List.suffix_refl _, Nat.le_refl _, Or.inr rfl⟩

theorem Refines.andThen {α β : Type} {patient : Prop} {out : Except ToolError α × σ}
    {whole : Except ToolError α × Port} (h : Refines source patient state out whole)
    {next : α → σ → Except ToolError β × σ} {next' : α → Port → Except ToolError β × Port}
    (hnext : ∀ value later, source.upcoming later <:+ source.upcoming state →
      source.work later ≤ source.work state →
      Refines source patient later (next value later) (next' value (source.upcoming later))) :
    Refines source patient state (port_reads.andThen out next)
      (port_reads.andThen whole next') := by
  obtain ⟨result, later⟩ := out
  obtain ⟨hsuffix, hwork, hresult⟩ := h
  cases result with
  | error error =>
    refine ⟨hsuffix, hwork, ?_⟩
    rcases hresult with ⟨htimeout, hpatient⟩ | hwhole
    · refine Or.inl ⟨?_, ?_⟩
      · obtain ⟨message, herror⟩ := htimeout
        cases herror
        exact ⟨message, rfl⟩
      · intro h
        obtain ⟨message, herror⟩ := hpatient h
        obtain ⟨whole, port⟩ := whole
        cases herror
        exact ⟨message, rfl⟩
    · rw [hwhole]
      exact Or.inr rfl
  | ok value =>
    rcases hresult with ⟨⟨message, herror⟩, -⟩ | hwhole
    · cases herror
    · rw [hwhole]
      obtain ⟨hsuffix', hwork', hresult'⟩ := hnext value later hsuffix hwork
      exact ⟨hsuffix'.trans hsuffix, hwork'.trans hwork, hresult'⟩

theorem Refines.weaken {α : Type} {patient patient' : Prop} {out : Except ToolError α × σ}
    {whole : Except ToolError α × Port} (h : Refines source patient state out whole)
    (himp : patient' → patient) : Refines source patient' state out whole :=
  ⟨h.suffix, h.work, h.result.imp_left fun ⟨htimeout, hpatient⟩ =>
    ⟨htimeout, fun h => hpatient (himp h)⟩⟩

theorem read_exact_refines (size : Nat) (patience : List Nat) :
    Refines source (Patient source patience state) state (read_exact source size patience state)
      (host_port.read_exact (source.upcoming state) size) := by
  have hfirst : (read_exact source size patience state).1 =
      (gather source size patience [] state).1.elim
        (.error (.TimeoutError "timed out waiting for bootloader response")) .ok := rfl
  have hsecond : (read_exact source size patience state).2 =
      (gather source size patience [] state).2 := rfl
  refine ⟨gather_suffix, gather_work, ?_⟩
  rw [hfirst, hsecond]
  cases hgather : (gather source size patience [] state).1 with
  | none =>
    refine Or.inl ⟨⟨_, rfl⟩, fun hpatient => ?_⟩
    by_cases hshort : (source.upcoming state).length < size
    · rw [host_port.read_exact, if_pos hshort]
      exact ⟨_, rfl⟩
    · exact absurd hgather (gather_patient hpatient (by rw [List.length_nil]; omega))
  | some found =>
    obtain ⟨hlength, hstream⟩ := gather_some hgather (Nat.zero_le size)
    rw [List.nil_append] at hstream
    refine Or.inr ?_
    rw [← hstream, host_port.read_exact_append _ hlength]
    rfl

/-- The deadlines leave as many reads as there are bytes to come and polls for nothing. -/
structure Deadlines.Patient (deadlines : Deadlines) (bound : Nat) : Prop where
  turns : ∀ turns ∈ deadlines.sync ++ deadlines.header ++ deadlines.tail, 0 < turns
  sync : bound ≤ deadlines.sync.length
  header : bound ≤ deadlines.header.length
  tail : bound ≤ deadlines.tail.length

theorem Deadlines.Patient.of_le {deadlines : Deadlines} {bound less : Nat}
    (h : deadlines.Patient bound) (hle : less ≤ bound) : deadlines.Patient less :=
  ⟨h.turns, hle.trans h.sync, hle.trans h.header, hle.trans h.tail⟩

variable (source) in
/-- What is still to do in a state. -/
def due (state : σ) : Nat := (source.upcoming state).length + source.work state

theorem due_le {later : σ} (hsuffix : source.upcoming later <:+ source.upcoming state)
    (hwork : source.work later ≤ source.work state) : due source later ≤ due source state :=
  Nat.add_le_add hsuffix.length_le hwork

theorem read_after_sync_refines (deadlines : Deadlines) (window : List UInt8) :
    Refines source (deadlines.Patient (due source state)) state
      (read_after_sync source deadlines window state)
      (host_port.read_after_sync window (source.upcoming state)) := by
  rw [host_read_after_sync]
  refine Refines.andThen ((read_exact_refines _ deadlines.header).weaken fun hpatient =>
    ⟨fun turns hmem => hpatient.turns turns (by simp [hmem]), hpatient.header⟩) ?_
  intro rest later hsuffix hwork
  dsimp only
  by_cases hlarge : (read_u16_le (window ++ rest) 6).toNat > MAX_PAYLOAD
  · rw [if_pos hlarge, if_pos hlarge]
    exact refines_same _ _
  · rw [if_neg hlarge, if_neg hlarge]
    refine Refines.andThen ((read_exact_refines _ deadlines.tail).weaken fun hpatient =>
      ⟨fun turns hmem => hpatient.turns turns (by simp [hmem]),
        (due_le hsuffix hwork).trans hpatient.tail⟩) ?_
    exact fun tail last _ _ => refines_same _ _

/-- A poll for one byte gives the next one of the stream, or nothing. -/
theorem poll_byte (turns : Nat) :
    (source.poll 1 turns state).1 = [] ∧
        source.upcoming (source.poll 1 turns state).2 = source.upcoming state ∨
      ∃ byte, (source.poll 1 turns state).1 = [byte] ∧
        source.upcoming state = byte :: source.upcoming (source.poll 1 turns state).2 := by
  have hle := source.poll_le 1 turns state
  have hstream := source.poll_upcoming 1 turns state
  rcases hpoll : (source.poll 1 turns state).1 with _ | ⟨byte, _ | ⟨second, rest⟩⟩
  · rw [hpoll] at hstream
    exact Or.inl ⟨rfl, hstream⟩
  · rw [hpoll] at hstream
    exact Or.inr ⟨byte, rfl, hstream.symm⟩
  · rw [hpoll] at hle
    simp at hle

theorem timedOut_nil (window : List UInt8) : TimedOut (host_port.read_packet_loop window []).1 :=
  ⟨_, rfl⟩

/-- The loop over the bytes up to the sync. -/
theorem read_packet_loop_refines (deadlines : Deadlines) (sync : List Nat) (window : List UInt8) :
    Refines source ((∀ turns ∈ sync, 0 < turns) ∧ due source state ≤ sync.length ∧
        deadlines.Patient (due source state)) state
      (read_packet_loop source deadlines sync window state)
      (host_port.read_packet_loop window (source.upcoming state)) := by
  induction sync generalizing window state with
  | nil =>
    refine ⟨List.suffix_refl _, Nat.le_refl _, Or.inl ⟨⟨_, rfl⟩, ?_⟩⟩
    rintro ⟨-, hdue, -⟩
    have hnil : source.upcoming state = [] := by
      apply List.length_eq_zero_iff.mp
      unfold due at hdue
      rw [List.length_nil] at hdue
      omega
    rw [hnil]
    exact timedOut_nil window
  | cons turns later ih =>
    have hle := source.work_le 1 turns state
    rw [read_packet_loop]
    dsimp only
    rcases @poll_byte σ source state turns with ⟨hnone, hsame⟩ | ⟨byte, hbyte, hnext⟩
    · rw [if_pos hnone]
      obtain ⟨hsuffix, hwork, hout⟩ := @ih (source.poll 1 turns state).2 window
      rw [hsame] at hsuffix hout
      refine ⟨hsuffix, hwork.trans hle, hout.imp_left fun ⟨htimeout, hpatient⟩ => ⟨htimeout, ?_⟩⟩
      rintro ⟨hturns, hdue, hlists⟩
      by_cases hnil : source.upcoming state = []
      · rw [hnil]
        exact timedOut_nil window
      · have hlt := source.work_lt 1 turns state Nat.one_pos
          (hturns turns (List.mem_cons_self ..)) hnil hnone
        have hless : due source (source.poll 1 turns state).2 < due source state := by
          unfold due
          rw [hsame]
          omega
        rw [List.length_cons] at hdue
        exact hpatient ⟨fun t ht => hturns t (List.mem_cons_of_mem _ ht), by omega,
          hlists.of_le hless.le⟩
    · have hkept : source.upcoming (source.poll 1 turns state).2 <:+ source.upcoming state := by
        rw [hnext]
        exact List.suffix_cons byte _
      have hless : due source (source.poll 1 turns state).2 < due source state := by
        unfold due
        rw [hnext, List.length_cons]
        omega
      have hwhole : ∀ port, host_port.read_packet_loop window (byte :: port) =
          if slide window byte = write_u16_le UPDATE_PROTOCOL_SYNC then
            host_port.read_after_sync (slide window byte) port
          else host_port.read_packet_loop (slide window byte) port := fun port => rfl
      rw [if_neg (by rw [hbyte]; exact List.cons_ne_nil byte []), hbyte, List.headD_cons]
      by_cases hsync : slide window byte = write_u16_le UPDATE_PROTOCOL_SYNC
      · obtain ⟨hsuffix, hwork, hout⟩ := @read_after_sync_refines σ source
          (source.poll 1 turns state).2 deadlines (slide window byte)
        rw [if_pos hsync]
        refine ⟨hsuffix.trans hkept, hwork.trans hle, ?_⟩
        rw [hnext, hwhole, if_pos hsync]
        exact hout.imp_left fun ⟨htimeout, hpatient⟩ =>
          ⟨htimeout, fun ⟨_, _, hlists⟩ => hpatient (hlists.of_le hless.le)⟩
      · obtain ⟨hsuffix, hwork, hout⟩ := @ih (source.poll 1 turns state).2 (slide window byte)
        rw [if_neg hsync]
        refine ⟨hsuffix.trans hkept, hwork.trans hle, ?_⟩
        rw [hnext, hwhole, if_neg hsync]
        refine hout.imp_left fun ⟨htimeout, hpatient⟩ => ⟨htimeout, ?_⟩
        rintro ⟨hturns, hdue, hlists⟩
        rw [List.length_cons] at hdue
        exact hpatient ⟨fun t ht => hturns t (List.mem_cons_of_mem _ ht), by omega,
          hlists.of_le hless.le⟩

theorem read_packet_refines (deadlines : Deadlines) :
    Refines source (deadlines.Patient (due source state)) state
      (read_packet source deadlines state) (host_port.read_packet (source.upcoming state)) :=
  (read_packet_loop_refines deadlines deadlines.sync []).weaken fun hpatient =>
    ⟨fun turns hmem => hpatient.turns turns (by simp [hmem]), hpatient.sync, hpatient⟩

theorem expect_ack_refines (deadlines : Deadlines) (command : UInt8)
    (session_id sequence : UInt32) :
    Refines source (deadlines.Patient (due source state)) state
      (expect_ack source deadlines command session_id sequence state)
      (host_port.expect_ack command session_id sequence (source.upcoming state)) := by
  rw [host_expect_ack]
  exact (read_packet_refines deadlines).andThen fun ack later _ _ => refines_same _ _

/-- With patience, the packets are read in order, and nothing is left of them. -/
theorem read_packets_queued {packets : List UpdatePacket} (hsend : Sendable packets)
    {reads : List Deadlines} (hlength : reads.length = packets.length)
    (hpatient : ∀ deadlines ∈ reads, deadlines.Patient (due source state))
    (hupcoming : source.upcoming state = queued packets) :
    (read_packets source reads state).1 = packets.map .ok ∧
      source.upcoming (read_packets source reads state).2 = [] := by
  induction packets generalizing reads state with
  | nil =>
    rw [List.length_eq_zero_iff.mp hlength]
    exact ⟨rfl, hupcoming⟩
  | cons packet packets ih =>
    obtain ⟨deadlines, later, rfl⟩ := List.exists_cons_of_length_eq_add_one hlength
    have hpacket := hpatient deadlines (List.mem_cons_self ..)
    obtain ⟨hsuffix, hwork, hresult⟩ := @read_packet_refines σ source state deadlines
    have hwhole : host_port.read_packet (source.upcoming state) = (.ok packet, queued packets) := by
      rw [hupcoming, queued_cons]
      exact read_packet_encoded (hsend packet (List.mem_cons_self ..)) _
    rw [hwhole] at hresult
    rcases hresult with ⟨-, htimeout⟩ | hsame
    · obtain ⟨message, herror⟩ := htimeout hpacket
      cases herror
    · obtain ⟨hok, hrest⟩ := Prod.mk.inj hsame
      obtain ⟨hlater, hnothing⟩ := @ih (read_packet source deadlines state).2
        (fun other hmem => hsend other (List.mem_cons_of_mem _ hmem)) later (by simpa using hlength)
        (fun other hmem => (hpatient other (List.mem_cons_of_mem _ hmem)).of_le
          (due_le hsuffix hwork)) hrest.symm
      rw [read_packets, List.map_cons]
      exact ⟨congrArg₂ List.cons hok.symm hlater, hnothing⟩

end

end stm32_vibe.port_reads
