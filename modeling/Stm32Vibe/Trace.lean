-- The trace records of the firmware, byte by byte, with an interrupt possible
-- between any two steps: the lock keeps the bytes of a record together.
import Stm32Vibe.FrameDecoder

namespace stm32_vibe.trace

open little_endian

/-! ## A record -/

def TRACE_SYNC_0 : UInt8 := 0xA5
def TRACE_SYNC_1 : UInt8 := 0x5A
def TRACE_VERSION : UInt8 := 1
def TRACE_MAX_ARGS : UInt8 := 4

/-- The calls that `TRACE` makes. -/
inductive TraceCall where
  | trace_emit0 (event_id : UInt16)
  | trace_emit1 (event_id : UInt16) (arg0 : UInt32)
  | trace_emit2 (event_id : UInt16) (arg0 arg1 : UInt32)
  | trace_emit3 (event_id : UInt16) (arg0 arg1 arg2 : UInt32)
  | trace_emit4 (event_id : UInt16) (arg0 arg1 arg2 arg3 : UInt32)
deriving DecidableEq, Repr

namespace TraceCall

def event_id : TraceCall → UInt16
  | trace_emit0 event_id => event_id
  | trace_emit1 event_id _ => event_id
  | trace_emit2 event_id _ _ => event_id
  | trace_emit3 event_id _ _ _ => event_id
  | trace_emit4 event_id _ _ _ _ => event_id

def args : TraceCall → List UInt32
  | trace_emit0 _ => []
  | trace_emit1 _ arg0 => [arg0]
  | trace_emit2 _ arg0 arg1 => [arg0, arg1]
  | trace_emit3 _ arg0 arg1 arg2 => [arg0, arg1, arg2]
  | trace_emit4 _ arg0 arg1 arg2 arg3 => [arg0, arg1, arg2, arg3]

def arg_count : TraceCall → UInt8
  | trace_emit0 _ => 0
  | trace_emit1 _ _ => 1
  | trace_emit2 _ _ _ => 2
  | trace_emit3 _ _ _ _ => 3
  | trace_emit4 _ _ _ _ _ => 4

end TraceCall

def crc8_update (crc value : UInt8) : UInt8 :=
  Nat.repeat (fun crc => if crc &&& 0x80 ≠ 0 then (crc <<< 1) ^^^ 0x07 else crc <<< 1) 8
    (crc ^^^ value)

def header (call : TraceCall) : List UInt8 :=
  [TRACE_VERSION, (call.event_id &&& 0xFF).toUInt8, (call.event_id >>> 8).toUInt8, call.arg_count]

/-- The bytes under the CRC: the header, and the arguments from their low bytes on. -/
def body (call : TraceCall) : List UInt8 := header call ++ unpackAll call.args

/-- The bytes of a whole record. -/
def frame (call : TraceCall) : List UInt8 :=
  [TRACE_SYNC_0, TRACE_SYNC_1] ++ (body call ++ [(body call).foldl crc8_update 0])

/-! ## The machine -/

/-- Where a call of `trace_emit_record` stands. `critical_state` is what
`critical_section_enter` returned. -/
inductive Phase where
  /-- In `trace_try_lock`, before it reads `trace_busy`. -/
  | locking (critical_state : Bool)
  /-- After the read, before the write. -/
  | testing (critical_state acquired : Bool)
  /-- Before `critical_section_exit`. -/
  | tested (critical_state acquired : Bool)
  | sync_0
  | sync_1
  /-- The bytes still to send, and the CRC of those sent. -/
  | sending (rest : List UInt8) (crc : UInt8)
  /-- Before `trace_unlock`. -/
  | unlocking
  /-- In `trace_unlock`, before it clears `trace_busy`. -/
  | clearing (critical_state : Bool)
  /-- Before `critical_section_exit`. -/
  | cleared (critical_state : Bool)
deriving DecidableEq, Repr

/-- The main program or an interrupt handler, with the calls that it still makes. -/
inductive Context where
  | idle (calls : List TraceCall)
  | inside (phase : Phase) (call : TraceCall) (calls : List TraceCall)
deriving DecidableEq, Repr

/-- The running context is first on the stack, the interrupted ones follow.
`acquired` has the calls that took the lock, in order. -/
structure Machine where
  primask : Bool
  trace_busy : Bool
  stack : List Context
  itm : List UInt8
  acquired : List TraceCall
deriving DecidableEq, Repr

/-- `itm_putchar`, which delivers the byte. -/
def Machine.put (m : Machine) (byte : UInt8) (stack : List Context) : Machine :=
  { m with itm := m.itm ++ [byte], stack }

/-- One step inside `trace_emit_record`. -/
def act (m : Machine) (call : TraceCall) (calls : List TraceCall) (below : List Context) :
    Phase → Machine
  | .locking critical_state =>
    { m with stack := .inside (.testing critical_state (!m.trace_busy)) call calls :: below }
  | .testing critical_state true =>
    { m with
      trace_busy := true
      acquired := m.acquired ++ [call]
      stack := .inside (.tested critical_state true) call calls :: below }
  | .testing critical_state false =>
    { m with stack := .inside (.tested critical_state false) call calls :: below }
  | .tested critical_state true =>
    { m with primask := critical_state, stack := .inside .sync_0 call calls :: below }
  | .tested critical_state false =>
    { m with primask := critical_state, stack := .idle calls :: below }
  | .sync_0 => m.put TRACE_SYNC_0 (.inside .sync_1 call calls :: below)
  | .sync_1 => m.put TRACE_SYNC_1 (.inside (.sending (body call) 0) call calls :: below)
  | .sending (byte :: rest) crc =>
    m.put byte (.inside (.sending rest (crc8_update crc byte)) call calls :: below)
  | .sending [] crc => m.put crc (.inside .unlocking call calls :: below)
  | .unlocking =>
    { m with primask := true, stack := .inside (.clearing m.primask) call calls :: below }
  | .clearing critical_state =>
    { m with trace_busy := false, stack := .inside (.cleared critical_state) call calls :: below }
  | .cleared critical_state =>
    { m with primask := critical_state, stack := .idle calls :: below }

/-- One step of the running context. The main program does not return. -/
def stepTop (m : Machine) : Option Machine :=
  match m.stack with
  | [] => none
  | [.idle []] => none
  | .idle [] :: interrupted :: below => some { m with stack := interrupted :: below }
  | .idle (call :: calls) :: below =>
    if call.arg_count > TRACE_MAX_ARGS then some { m with stack := .idle calls :: below }
    else
      some { m with primask := true, stack := .inside (.locking m.primask) call calls :: below }
  | .inside phase call calls :: below => some (act m call calls below phase)

/-- An interrupt that makes any calls may start between any two steps, unless
interrupts are disabled. -/
inductive Step (m : Machine) : Machine → Prop
  | interrupt (calls : List TraceCall) (enabled : m.primask = false) :
      Step m { m with stack := .idle calls :: m.stack }
  | top {next : Machine} (h : stepTop m = some next) : Step m next

def Reaches : Machine → Machine → Prop := Relation.ReflTransGen Step

/-- The main program before its first call, with interrupts enabled or not. -/
def start (primask : Bool) (calls : List TraceCall) : Machine where
  primask := primask
  trace_busy := false
  stack := [.idle calls]
  itm := []
  acquired := []

/-! ## What a context owes -/

/-- The call has the lock. -/
def Phase.holds : Phase → Bool
  | .tested _ acquired => acquired
  | .sync_0 | .sync_1 | .sending _ _ | .unlocking | .clearing _ => true
  | .locking _ | .testing _ _ | .cleared _ => false

/-- The bytes that the call still sends. -/
def Phase.remaining (call : TraceCall) : Phase → List UInt8
  | .tested _ true | .sync_0 => frame call
  | .sync_1 => TRACE_SYNC_1 :: (body call ++ [(body call).foldl crc8_update 0])
  | .sending rest crc => rest ++ [rest.foldl crc8_update crc]
  | _ => []

/-- The mask to restore, in a critical section. -/
def Phase.saved : Phase → Option Bool
  | .locking critical_state | .testing critical_state _ | .tested critical_state _
  | .clearing critical_state | .cleared critical_state => some critical_state
  | _ => none

namespace Context

def holds : Context → Bool
  | .idle _ => false
  | .inside phase _ _ => phase.holds

def remaining : Context → List UInt8
  | .idle _ => []
  | .inside phase call _ => phase.remaining call

def saved : Context → Option Bool
  | .idle _ => none
  | .inside phase _ _ => phase.saved

/-- What the call found when it read `trace_busy`. -/
def found : Context → Option Bool
  | .inside (.testing _ acquired) _ _ => some acquired
  | _ => none

theorem remaining_of_not_holds {c : Context} (h : c.holds = false) : c.remaining = [] := by
  cases c with
  | idle _ => rfl
  | inside phase call _ =>
    cases phase with
    | tested s acquired =>
      cases acquired with
      | true => cases h
      | false => rfl
    | locking _ => rfl
    | testing _ _ => rfl
    | cleared _ => rfl
    | unlocking => rfl
    | clearing _ => rfl
    | sync_0 => cases h
    | sync_1 => cases h
    | sending _ _ => cases h

end Context

/-! ## The invariant -/

/-- What holds of the machine between any two steps, with `running` on the stack
above `below`. `mask` is the interrupt mask of the main program. -/
structure Good (mask : Bool) (m : Machine) (running : Context) (below : List Context) :
    Prop where
  stack : m.stack = running :: below
  bytes : m.itm ++ (running.remaining ++ below.flatMap Context.remaining) =
    m.acquired.flatMap frame
  lock : below.countP Context.holds + running.holds.toNat = m.trace_busy.toNat
  interrupted : ∀ c ∈ below, c.saved = none
  unmasked : running.saved = none → m.primask = mask
  masked : ∀ critical_state, running.saved = some critical_state →
    critical_state = mask ∧ m.primask = true
  found : ∀ acquired, running.found = some acquired → acquired = !m.trace_busy

theorem good_start (mask : Bool) (calls : List TraceCall) :
    Good mask (start mask calls) (.idle calls) [] := by
  constructor <;> simp [start, Context.remaining, Context.holds, Context.saved, Context.found]

theorem countP_holds (c : Context) (contexts : List Context) :
    (c :: contexts).countP Context.holds = contexts.countP Context.holds + c.holds.toNat := by
  rw [List.countP_cons]
  cases c.holds <;> rfl

/-- While the lock is free nothing is owed. -/
theorem remaining_nil {contexts : List Context} (h : contexts.countP Context.holds = 0) :
    contexts.flatMap Context.remaining = [] := by
  rw [List.countP_eq_zero] at h
  rw [List.flatMap_eq_nil_iff]
  intro c hc
  exact Context.remaining_of_not_holds (by simpa using h c hc)

theorem Context.found_of_saved {c : Context} (h : c.saved = none) : c.found = none := by
  cases c with
  | idle _ => rfl
  | inside phase _ _ =>
    cases phase with
    | testing _ _ => cases h
    | _ => rfl

section
variable {mask : Bool} {m : Machine} {running : Context} {below : List Context}

/-- An interrupt comes in no critical section. -/
theorem good_interrupt (h : Good mask m running below) (calls : List TraceCall)
    (enabled : m.primask = false) :
    Good mask { m with stack := .idle calls :: m.stack } (.idle calls) m.stack := by
  have hrunning : running.saved = none := by
    cases hs : running.saved with
    | none => rfl
    | some critical_state =>
      have hmasked := (h.masked critical_state hs).2
      rw [enabled] at hmasked
      cases hmasked
  constructor
  · rfl
  · simpa [h.stack, Context.remaining] using h.bytes
  · rw [h.stack, countP_holds]
    exact h.lock
  · intro c hc
    rw [h.stack] at hc
    rcases List.mem_cons.mp hc with rfl | hbelow
    · exact hrunning
    · exact h.interrupted c hbelow
  · intro _
    exact h.unmasked hrunning
  · intro critical_state hs
    cases hs
  · intro acquired hf
    cases hf

/-- A handler returns. -/
theorem good_return (h : Good mask m (.idle []) (running :: below)) :
    Good mask { m with stack := running :: below } running below := by
  have hsaved := h.interrupted running List.mem_cons_self
  constructor
  · rfl
  · simpa [Context.remaining] using h.bytes
  · have hlock := h.lock
    rwa [countP_holds] at hlock
  · intro c hc
    exact h.interrupted c (List.mem_cons_of_mem _ hc)
  · intro _
    exact h.unmasked rfl
  · intro critical_state hs
    rw [hsaved] at hs
    cases hs
  · intro acquired hf
    rw [Context.found_of_saved hsaved] at hf
    cases hf

/-- A call enters the critical section of the lock. -/
theorem good_enter {call : TraceCall} {calls : List TraceCall}
    (h : Good mask m (.idle (call :: calls)) below) :
    Good mask
      { m with primask := true, stack := .inside (.locking m.primask) call calls :: below }
      (.inside (.locking m.primask) call calls) below := by
  have hmask := h.unmasked rfl
  constructor
  · rfl
  · exact h.bytes
  · exact h.lock
  · exact h.interrupted
  · intro hs
    cases hs
  · intro critical_state hs
    cases hs
    exact ⟨hmask, rfl⟩
  · intro acquired hf
    cases hf

/-- A step inside a call. -/
theorem good_act {phase : Phase} {call : TraceCall} {calls : List TraceCall}
    (h : Good mask m (.inside phase call calls) below) :
    ∃ next, Good mask (act m call calls below phase) next below := by
  obtain ⟨hstack, hbytes, hlock, hinterrupted, hunmasked, hmasked, hfound⟩ := h
  cases phase with
  | locking critical_state =>
    refine ⟨_, rfl, hbytes, hlock, hinterrupted, nofun, hmasked, ?_⟩
    intro acquired hf
    exact (Option.some.inj hf).symm
  | testing critical_state acquired =>
    cases acquired with
    | true =>
      have hfree : m.trace_busy = false := by simpa using hfound true rfl
      have hnone : below.countP Context.holds = 0 := by
        rw [hfree] at hlock
        exact hlock
      have hnil := remaining_nil hnone
      refine ⟨_, rfl, ?_, ?_, hinterrupted, nofun, hmasked, nofun⟩
      · simp only [hnil, Context.remaining, Phase.remaining, List.append_nil, act] at hbytes ⊢
        rw [hbytes, List.flatMap_append, List.flatMap_singleton]
      · rw [hnone]
        rfl
    | false => exact ⟨_, rfl, hbytes, hlock, hinterrupted, nofun, hmasked, nofun⟩
  | tested critical_state acquired =>
    obtain ⟨hmask, -⟩ := hmasked critical_state rfl
    cases acquired with
    | true => exact ⟨_, rfl, hbytes, hlock, hinterrupted, fun _ => hmask, nofun, nofun⟩
    | false => exact ⟨_, rfl, hbytes, hlock, hinterrupted, fun _ => hmask, nofun, nofun⟩
  | sync_0 =>
    refine ⟨_, rfl, ?_, hlock, hinterrupted, hunmasked, nofun, nofun⟩
    simpa [act, Machine.put, Context.remaining, Phase.remaining, frame] using hbytes
  | sync_1 =>
    refine ⟨_, rfl, ?_, hlock, hinterrupted, hunmasked, nofun, nofun⟩
    simpa [act, Machine.put, Context.remaining, Phase.remaining] using hbytes
  | sending rest crc =>
    cases rest with
    | nil =>
      refine ⟨_, rfl, ?_, hlock, hinterrupted, hunmasked, nofun, nofun⟩
      simpa [act, Machine.put, Context.remaining, Phase.remaining] using hbytes
    | cons byte rest =>
      refine ⟨_, rfl, ?_, hlock, hinterrupted, hunmasked, nofun, nofun⟩
      simpa [act, Machine.put, Context.remaining, Phase.remaining] using hbytes
  | unlocking =>
    refine ⟨_, rfl, hbytes, hlock, hinterrupted, nofun, ?_, nofun⟩
    intro critical_state hs
    cases hs
    exact ⟨hunmasked rfl, rfl⟩
  | clearing critical_state =>
    refine ⟨_, rfl, hbytes, ?_, hinterrupted, nofun, hmasked, nofun⟩
    have hone : below.countP Context.holds + 1 = m.trace_busy.toNat := hlock
    have hle := Bool.toNat_le m.trace_busy
    show below.countP Context.holds + 0 = 0
    omega
  | cleared critical_state =>
    obtain ⟨hmask, -⟩ := hmasked critical_state rfl
    exact ⟨_, rfl, hbytes, hlock, hinterrupted, fun _ => hmask, nofun, nofun⟩

/-- No call has too many arguments. -/
theorem arg_count_le (call : TraceCall) : ¬ call.arg_count > TRACE_MAX_ARGS := by
  have hmax : ∀ count : UInt8, count.toNat ≤ 4 → ¬ count > TRACE_MAX_ARGS := by
    intro count h
    exact UInt8.not_lt.mpr (UInt8.le_iff_toNat_le.mpr h)
  apply hmax
  cases call <;> simp [TraceCall.arg_count]

/-- Everything that the running context can do. -/
theorem stepTop_cases {next : Machine} (h : Good mask m running below)
    (hstep : stepTop m = some next) :
    (∃ interrupted rest, running = .idle [] ∧ below = interrupted :: rest ∧
        next = { m with stack := interrupted :: rest }) ∨
      (∃ call calls, running = .idle (call :: calls) ∧
        next = { m with
          primask := true, stack := .inside (.locking m.primask) call calls :: below }) ∨
      ∃ phase call calls, running = .inside phase call calls ∧
        next = act m call calls below phase := by
  unfold stepTop at hstep
  rw [h.stack] at hstep
  cases running with
  | idle calls =>
    cases calls with
    | nil =>
      cases below with
      | nil => cases hstep
      | cons interrupted rest =>
        left
        exact ⟨interrupted, rest, rfl, rfl, (Option.some.inj hstep).symm⟩
    | cons call calls =>
      right; left
      dsimp only at hstep
      rw [if_neg (arg_count_le call)] at hstep
      exact ⟨call, calls, rfl, (Option.some.inj hstep).symm⟩
  | inside phase call calls =>
    right; right
    exact ⟨phase, call, calls, rfl, (Option.some.inj hstep).symm⟩

theorem good_step {next : Machine} (h : Good mask m running below) (hstep : Step m next) :
    ∃ running' below', Good mask next running' below' := by
  cases hstep with
  | interrupt calls enabled => exact ⟨_, _, good_interrupt h calls enabled⟩
  | top htop =>
    rcases stepTop_cases h htop with ⟨interrupted, rest, rfl, rfl, rfl⟩ | ⟨call, calls, rfl, rfl⟩ |
      ⟨phase, call, calls, rfl, rfl⟩
    · exact ⟨_, _, good_return h⟩
    · exact ⟨_, _, good_enter h⟩
    · obtain ⟨running', hgood⟩ := good_act h
      exact ⟨running', below, hgood⟩

/-- In every run, whatever interrupts come. -/
theorem good_reaches {calls : List TraceCall} (h : Reaches (start mask calls) m) :
    ∃ running below, Good mask m running below := by
  induction h with
  | refl => exact ⟨_, _, good_start mask calls⟩
  | tail _ hstep ih =>
    obtain ⟨running, below, hgood⟩ := ih
    exact good_step hgood hstep

/-- The steps that send a byte or take the lock need the lock or find it free. -/
theorem act_silent {phase : Phase} (call : TraceCall) (calls : List TraceCall)
    (hholds : phase.holds = false)
    (htested : ∀ critical_state, phase ≠ .testing critical_state true) :
    (act m call calls below phase).itm = m.itm ∧
      (act m call calls below phase).acquired = m.acquired := by
  cases phase with
  | testing critical_state acquired =>
    cases acquired with
    | true => exact absurd rfl (htested critical_state)
    | false => exact ⟨rfl, rfl⟩
  | tested critical_state acquired =>
    cases acquired with
    | true => cases hholds
    | false => exact ⟨rfl, rfl⟩
  | locking _ => exact ⟨rfl, rfl⟩
  | cleared _ => exact ⟨rfl, rfl⟩
  | unlocking => exact ⟨rfl, rfl⟩
  | clearing _ => exact ⟨rfl, rfl⟩
  | sync_0 => cases hholds
  | sync_1 => cases hholds
  | sending _ _ => cases hholds

/-- While an interrupted call has the lock, no step of what interrupted it sends
a byte or takes the lock. -/
theorem nested_silent {next : Machine} (h : Good mask m running below) (hstep : Step m next)
    (hheld : ∃ c ∈ below, c.holds = true) :
    next.itm = m.itm ∧ next.acquired = m.acquired := by
  have hcount : 0 < below.countP Context.holds := List.countP_pos_iff.mpr hheld
  have hlock := h.lock
  have hbusy := Bool.toNat_le m.trace_busy
  have hfree : running.holds.toNat = 0 := by omega
  have hset : m.trace_busy = true := by
    cases hb : m.trace_busy with
    | true => rfl
    | false => rw [hb] at hlock; simp only [Bool.toNat_false] at hlock; omega
  cases hstep with
  | interrupt calls enabled => exact ⟨rfl, rfl⟩
  | top htop =>
    rcases stepTop_cases h htop with ⟨interrupted, rest, rfl, rfl, rfl⟩ | ⟨call, calls, rfl, rfl⟩ |
      ⟨phase, call, calls, rfl, rfl⟩
    · exact ⟨rfl, rfl⟩
    · exact ⟨rfl, rfl⟩
    · apply act_silent
      · cases hp : phase.holds with
        | true => simp [Context.holds, hp] at hfree
        | false => rfl
      · rintro critical_state rfl
        have hfound := h.found true rfl
        rw [hset] at hfound
        cases hfound

/-- When the main program is between two calls, the bytes are whole frames. -/
theorem itm_frames {calls : List TraceCall} (h : Good mask m running below)
    (hidle : m.stack = [.idle calls]) : m.itm = m.acquired.flatMap frame := by
  have hstack := h.stack
  rw [hidle] at hstack
  obtain ⟨rfl, rfl⟩ := List.cons.inj hstack
  simpa [Context.remaining] using h.bytes

end

/-! ## The frame and the decoder -/

/-- What the decoder makes of a call. -/
def record (call : TraceCall) : frame_decoder.Record := (call.event_id, call.args)

theorem crc8_eq (data : List UInt8) : frame_decoder.crc8 data = data.foldl crc8_update 0 := by
  have hmask : ∀ x : UInt8, x &&& 0xFF = x := by
    intro x
    apply UInt8.toNat_inj.mp
    rw [UInt8.toNat_and]
    exact (Nat.and_two_pow_sub_one_eq_mod x.toNat 8).trans (Nat.mod_eq_of_lt x.toNat_lt)
  have hfun : frame_decoder.crc8Bit =
      fun crc : UInt8 => if crc &&& 0x80 ≠ 0 then (crc <<< 1) ^^^ 0x07 else crc <<< 1 := by
    funext crc
    simp only [frame_decoder.crc8Bit, hmask]
  unfold frame_decoder.crc8 crc8_update
  rw [hfun]

theorem arg_count_toNat (call : TraceCall) : call.arg_count.toNat = call.args.length := by
  cases call <;> rfl

theorem event_id_bytes (id : UInt16) : packHalf (id &&& 0xFF).toUInt8 (id >>> 8).toUInt8 = id := by
  have hlow : (id &&& 0xFF).toUInt8 = id.toUInt8 := by
    apply UInt8.toNat_inj.mp
    rw [UInt16.toNat_toUInt8, UInt16.toNat_toUInt8, UInt16.toNat_and]
    show (id.toNat &&& 2 ^ 8 - 1) % 2 ^ 8 = _
    rw [Nat.and_two_pow_sub_one_eq_mod, Nat.mod_mod]
  rw [hlow, packHalf_bytes]

theorem length_frame (call : TraceCall) : (frame call).length = 7 + call.args.length * 4 := by
  simp [frame, body, header, length_unpackAll]
  omega

/-- The arguments stand behind the header. -/
theorem unpackArg_frame (call : TraceCall) {index : Nat} (h : index < call.args.length) :
    frame_decoder.unpackArg (frame call) index = call.args[index] := by
  apply readWord_of_lanes
  intro j hj
  have hframe : (frame call).getD (6 + index * 4 + j) 0 =
      (unpackAll call.args ++ [(body call).foldl crc8_update 0]).getD (index * 4 + j) 0 := by
    have hsplit : frame call = [TRACE_SYNC_0, TRACE_SYNC_1] ++ header call ++
        (unpackAll call.args ++ [(body call).foldl crc8_update 0]) := by
      simp [frame, body]
    have hhead : ([TRACE_SYNC_0, TRACE_SYNC_1] ++ header call).length = 6 := rfl
    rw [hsplit, List.getD_append_right _ _ _ _ (by rw [hhead]; omega), hhead]
    congr 1
    omega
  rw [hframe, List.getD_append _ _ _ _ (by rw [length_unpackAll]; omega), List.getD,
    getElem?_unpackAll, show (index * 4 + j) / 4 = index by omega,
    show (index * 4 + j) % 4 = j by omega, List.getElem?_eq_getElem h]
  rfl

/-- A frame is decoded to its call. -/
theorem checkFrame_frame (call : TraceCall) :
    frame_decoder.checkFrame (frame call) = some ([record call], (frame call).length) := by
  have hlength := length_frame call
  have hcount : (frame call).getD 5 0 = call.arg_count := rfl
  have hversion : (frame call).getD 2 0 = frame_decoder.TRACE_VERSION := rfl
  have hid : packHalf ((frame call).getD 3 0) ((frame call).getD 4 0) = call.event_id :=
    event_id_bytes call.event_id
  have hdrop : (frame call).drop 2 = body call ++ [(body call).foldl crc8_update 0] := rfl
  have hlast : (frame call).getLastD 0 = (body call).foldl crc8_update 0 := by
    rw [frame, ← List.append_assoc, List.getLastD_concat]
  have hargs : (List.range call.args.length).map (frame_decoder.unpackArg (frame call)) =
      call.args := by
    apply List.ext_getElem
    · simp
    · intro i h1 h2
      rw [List.getElem_map, List.getElem_range, unpackArg_frame call h2]
  unfold frame_decoder.checkFrame
  rw [if_neg (by omega)]
  dsimp only
  rw [hcount, hversion, hid, arg_count_toNat, if_neg, if_neg (by omega),
    List.take_of_length_le (by omega), hdrop, List.dropLast_concat, hlast, crc8_eq,
    if_neg (not_not.mpr rfl), hargs, ← hlength]
  · rfl
  · rintro (h | h)
    · exact h rfl
    · exact arg_count_le call h

theorem front_frame (call : TraceCall) (more : List UInt8) :
    frame_decoder.scanner.front (frame call ++ more) =
      some ([record call], (frame call).length) := by
  rw [frame_decoder.front_sync rfl]
  exact frame_decoder.checkFrame_append more (checkFrame_frame call)

/-- A row of frames, in any chunks, is decoded to its calls. -/
theorem feedAll_frames (calls : List TraceCall) {chunks : List (List UInt8)}
    (h : chunks.flatten = calls.flatMap frame) :
    frame_decoder.FrameDecoder.init.feedAll chunks = calls.map record := by
  rw [frame_decoder.feedAll_chunks, h]
  have hscan := stream_scanner.scan_pieces frame_decoder.scanner frame (fun call => [record call])
    front_frame calls []
  rw [List.append_nil] at hscan
  rw [hscan, List.map_eq_flatMap]
  simp

/-! ## Records end to end -/

/-- However interrupts nest: a call that is made while another record is on its
way sends nothing, and when the main program is done the bytes are the frames of
the calls that took the lock, in that order, which is what the decoder finds in
them, in any chunks. -/
theorem records_survive {mask : Bool} {calls : List TraceCall} {m : Machine}
    (hrun : Reaches (start mask calls) m) :
    (∀ next, Step m next → (∃ c ∈ m.stack.tail, c.holds = true) →
        next.itm = m.itm ∧ next.acquired = m.acquired) ∧
      (m.stack = [.idle []] →
        m.itm = m.acquired.flatMap frame ∧
          ∀ chunks : List (List UInt8), chunks.flatten = m.itm →
            frame_decoder.FrameDecoder.init.feedAll chunks = m.acquired.map record) := by
  obtain ⟨running, below, hgood⟩ := good_reaches hrun
  constructor
  · intro next hstep hheld
    rw [hgood.stack] at hheld
    exact nested_silent hgood hstep hheld
  · intro hdone
    have hframes := itm_frames hgood hdone
    refine ⟨hframes, ?_⟩
    intro chunks hchunks
    exact feedAll_frames m.acquired (hchunks.trans hframes)

/-- Some steps of the running context, with no interrupt. -/
def runTop : Nat → Machine → Machine
  | 0, m => m
  | count + 1, m =>
    match stepTop m with
    | none => m
    | some next => runTop count next

theorem reaches_runTop (count : Nat) (m : Machine) : Reaches m (runTop count m) := by
  induction count generalizing m with
  | zero => exact .refl
  | succ count ih =>
    rw [runTop]
    split
    · exact .refl
    · rename_i next hnext
      exact .head (.top hnext) (ih next)

/-- A record with one argument that is interrupted behind its marker. -/
def interruptedRecord : Machine := runTop 6 (start false [.trace_emit1 0x1234 0x89ABCDEF])

/-- The handler traces as well. Its record is dropped, the other one arrives. -/
theorem records_survive_interrupted :
    let m := runTop 30
      { interruptedRecord with stack := .idle [.trace_emit0 1] :: interruptedRecord.stack }
    frame_decoder.FrameDecoder.init.feedAll [m.itm.take 5, m.itm.drop 5] =
      [(0x1234, [0x89ABCDEF])] := by
  intro m
  have hbegin := reaches_runTop 6 (start false [.trace_emit1 0x1234 0x89ABCDEF])
  have hinterrupt : Reaches interruptedRecord
      { interruptedRecord with stack := .idle [.trace_emit0 1] :: interruptedRecord.stack } :=
    .single (.interrupt _ rfl)
  have hrun : Reaches (start false [.trace_emit1 0x1234 0x89ABCDEF]) m :=
    (hbegin.trans hinterrupt).trans (reaches_runTop 30 _)
  have hdone : m.stack = [.idle []] := by decide +kernel
  have hacquired : m.acquired = [.trace_emit1 0x1234 0x89ABCDEF] := by decide +kernel
  have hchunks := ((records_survive hrun).2 hdone).2 [m.itm.take 5, m.itm.drop 5] (by simp)
  rw [hchunks, hacquired]
  rfl

end stm32_vibe.trace
