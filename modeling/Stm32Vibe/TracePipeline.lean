-- Traces from end to end: what the calls of TRACE in several images send through
-- the debug port, the tool prints with the formats of those calls.
import Stm32Vibe.ItmDecoder
import Stm32Vibe.Lib.Utf8
import Stm32Vibe.Trace
import Stm32Vibe.TraceMap

namespace stm32_vibe.trace_pipeline

open code_points percent_format trace_format frame_decoder itm_decoder trace trace_map

/-! ## The tool -/

/-- What `decode_stream` prints for a record. -/
inductive Line where
  | unknown (event_id : UInt16) (args : List UInt32)
  | record (text : Str)
deriving DecidableEq, Repr

/-- `{event_id:04X}`. -/
def upperHex (event_id : UInt16) : List Char :=
  let digits := (Nat.toDigits 16 event_id.toNat).map Char.toUpper
  List.replicate (4 - digits.length) '0' ++ digits

def Line.text : Line → Str
  | .unknown event_id args =>
    ("[unknown trace event 0x".toList ++ upperHex event_id ++ "] [".toList ++
      (", ".intercalate (args.map fun arg => toString arg.toNat)).toList ++
      "]".toList).map Char.toNat
  | .record text => text

/-- `print`, to a standard output in UTF-8: a surrogate raises, and nothing is printed. -/
def print_line (line : Line) : Option Line := if Encodable line.text then some line else none

/-- The line of a record, or none where `format_record` or `print` raises. -/
def print_record (events : Events) (record : Record) : Option Line :=
  (events.lookup record.1.toNat).elim (print_line (.unknown record.1 record.2)) fun event =>
    (format_record event record.2).bind fun text => print_line (.record text)

/-- What is printed, up to the end or until something is raised. -/
structure Printed where
  lines : List Line
  raised : Bool

/-- One after the other. What is raised ends the first. -/
def Printed.andThen (first rest : Printed) : Printed :=
  if first.raised then first else { rest with lines := first.lines ++ rest.lines }

/-- The inner loop of `decode_stream`. -/
def print_records (events : Events) : List Record → Printed
  | [] => { lines := [], raised := false }
  | record :: records =>
    let printed : Printed := (print_record events record).elim { lines := [], raised := true }
      fun line => { lines := [line], raised := false }
    printed.andThen (print_records events records)

/-- The outer loop, over the chunks that are read. -/
def decode_chunks (events : Events) :
    ItmDecoder → FrameDecoder → List (List UInt8) → Printed
  | _, _, [] => { lines := [], raised := false }
  | itm_decoder, frame_decoder, chunk :: chunks =>
    let trace_bytes := itm_decoder.feed chunk
    let records := frame_decoder.feed trace_bytes.1
    (print_records events records.1).andThen
      (decode_chunks events trace_bytes.2 records.2 chunks)

/-- Without `--follow`, on the events of the map files. -/
def decode_stream (maps : List Events) (chunks : List (List UInt8)) : Except Nat Printed :=
  (load_events maps).map fun events => decode_chunks events .init .init chunks

/-! ## The stages -/

theorem andThen_assoc (first second third : Printed) :
    (first.andThen second).andThen third = first.andThen (second.andThen third) := by
  unfold Printed.andThen
  by_cases hfirst : first.raised = true
  · simp [hfirst]
  · by_cases hsecond : second.raised = true <;> simp [hfirst, hsecond]

theorem print_records_append (events : Events) (records more : List Record) :
    print_records events (records ++ more) =
      (print_records events records).andThen (print_records events more) := by
  induction records with
  | nil => rfl
  | cons record records ih =>
    rw [List.cons_append, print_records, print_records, ih]
    exact (andThen_assoc _ _ _).symm

/-- The chunks that the first stage hands on. -/
def handedOn : ItmDecoder → List (List UInt8) → List (List UInt8)
  | _, [] => []
  | itm_decoder, chunk :: chunks =>
    (itm_decoder.feed chunk).1 :: handedOn (itm_decoder.feed chunk).2 chunks

theorem handedOn_flatten (itm_decoder : ItmDecoder) (chunks : List (List UInt8)) :
    (handedOn itm_decoder chunks).flatten = (itm_decoder.feedAll chunks).1 := by
  induction chunks generalizing itm_decoder with
  | nil => rfl
  | cons chunk chunks ih =>
    rw [handedOn, List.flatten_cons, ih]
    rfl

/-- The records of the two decoders are printed one after the other. -/
theorem decode_chunks_eq (events : Events) (itm_decoder : ItmDecoder)
    (frame_decoder : FrameDecoder) (chunks : List (List UInt8)) :
    decode_chunks events itm_decoder frame_decoder chunks =
      print_records events (frame_decoder.feedAll (handedOn itm_decoder chunks)) := by
  induction chunks generalizing itm_decoder frame_decoder with
  | nil => rfl
  | cons chunk chunks ih =>
    rw [decode_chunks, handedOn, FrameDecoder.feedAll, print_records_append, ← ih]

/-- Port 0 of a row of packets, however it is cut. -/
theorem handedOn_packets {packets : List Packet} {chunks : List (List UInt8)}
    (hchunks : chunks.flatten = packets.flatMap Packet.bytes) :
    (handedOn .init chunks).flatten = packets.flatMap Packet.portZero := by
  have hread : ∀ rest data, ItmDecoder.feed ⟨rest⟩ data =
      ((stream_scanner.whileLoop itmTurn itmTurn_bounded (rest ++ data)).1,
        ⟨(stream_scanner.whileLoop itmTurn itmTurn_bounded (rest ++ data)).2⟩) := fun _ _ => rfl
  rw [handedOn_flatten]
  exact congrArg Prod.fst (stream_scanner.feedEach_pieces itmTurn_bounded itmTurn_stable hread
    Packet.bytes_ne_nil itmTurn_packet packets hchunks)

/-- The calls whose frames come through port 0 are what is printed. -/
theorem decode_chunks_calls (events : Events) {calls : List TraceCall} {packets : List Packet}
    (hpackets : packets.flatMap Packet.portZero = calls.flatMap frame) {chunks : List (List UInt8)}
    (hchunks : chunks.flatten = packets.flatMap Packet.bytes) :
    decode_chunks events .init .init chunks = print_records events (calls.map record) := by
  rw [decode_chunks_eq, feedAll_frames calls ((handedOn_packets hchunks).trans hpackets)]

/-! ## The calls of an image -/

/-- An image that traces: its formats, and the base of their numbers. -/
structure Image where
  symbols : List Symbol
  trace_section : List UInt8
  id_base : Nat

/-- The map of the image is built. -/
structure Image.Mapped (image : Image) (trace_map : Events) : Prop where
  apart : Apart image.symbols
  built : build_map image.symbols image.trace_section image.id_base = .ok trace_map

/-- The call is what `TRACE` makes of a format of the image. -/
def Image.CallOf (image : Image) (symbol : Symbol) (call : TraceCall) : Prop :=
  symbol ∈ image.symbols ∧ call.event_id = TRACE_DETAIL_ID image.id_base symbol ∧
    call.args.length = symbol.argument_count

def Image.Traces (image : Image) (call : TraceCall) : Prop := ∃ symbol, image.CallOf symbol call

/-- The calls of a context, with the one it is in. -/
def calls : Context → List TraceCall
  | .idle calls => calls
  | .inside _ call calls => call :: calls

def Makes (P : TraceCall → Prop) (m : Machine) : Prop := ∀ c ∈ m.stack, ∀ call ∈ calls c, P call

/-- A run of the image up to a place between two calls of its main program: all
calls, and those of the handlers that interrupt it, are calls of `TRACE` in the image. -/
def Image.Ran (image : Image) (m : Machine) : Prop :=
  m.stack = [.idle []] ∧ ∃ mask calls, (∀ call ∈ calls, image.Traces call) ∧
    Relation.ReflTransGen (fun m next => Step m next ∧ Makes image.Traces next)
      (start mask calls) m

section
variable {P : TraceCall → Prop}

theorem act_acquired (m : Machine) (call : TraceCall) (calls : List TraceCall)
    (below : List Context) (phase : Phase) :
    (act m call calls below phase).acquired = m.acquired ∨
      (act m call calls below phase).acquired = m.acquired ++ [call] := by
  rcases phase with _ | ⟨_, _ | _⟩ | ⟨_, _ | _⟩ | _ | _ | ⟨_ | _, _⟩ | _ | _ | _
  case testing.true => exact Or.inr rfl
  all_goals exact Or.inl rfl

/-- Only calls that are made take the lock. -/
theorem acquired_made {mask : Bool} {calls : List TraceCall} {m : Machine}
    (hcalls : ∀ call ∈ calls, P call)
    (h : Relation.ReflTransGen (fun m next => Step m next ∧ Makes P next) (start mask calls) m) :
    Reaches (start mask calls) m ∧ Makes P m ∧ ∀ call ∈ m.acquired, P call := by
  induction h with
  | refl =>
    refine ⟨.refl, ?_, nofun⟩
    intro c hmem
    rw [List.mem_singleton.mp hmem]
    exact hcalls
  | tail hrun hstep ih =>
    obtain ⟨hreaches, hmakes, hacquired⟩ := ih
    refine ⟨hreaches.tail hstep.1, hstep.2, ?_⟩
    obtain ⟨running, below, hgood⟩ := good_reaches hreaches
    cases hstep.1 with
    | interrupt calls enabled => exact hacquired
    | top htop =>
      rcases stepTop_cases hgood htop with ⟨interrupted, rest, -, -, rfl⟩ |
        ⟨call, calls, -, rfl⟩ | ⟨phase, call, calls, hrunning, rfl⟩
      · exact hacquired
      · exact hacquired
      · have hcall : P call := by
          apply hmakes running (by rw [hgood.stack]; exact List.mem_cons_self ..)
          rw [hrunning]
          exact List.mem_cons_self ..
        intro other hmem
        rcases act_acquired _ call calls below phase with hsame | hmore
        · rw [hsame] at hmem
          exact hacquired other hmem
        · rw [hmore] at hmem
          rcases List.mem_append.mp hmem with hmem | hmem
          · exact hacquired other hmem
          · rw [List.mem_singleton.mp hmem]
            exact hcall

end

/-- After such a run the bytes are the frames of calls of the image. -/
theorem ran_frames {image : Image} {m : Machine} (h : image.Ran m) :
    m.itm = m.acquired.flatMap frame ∧ ∀ call ∈ m.acquired, image.Traces call := by
  obtain ⟨hidle, mask, calls, hcalls, hrun⟩ := h
  obtain ⟨hreaches, -, hacquired⟩ := acquired_made hcalls hrun
  obtain ⟨running, below, hgood⟩ := good_reaches hreaches
  exact ⟨itm_frames hgood hidle, hacquired⟩

/-! ## What UTF-8 encodes -/

/-- The values that are printed by `%c` are characters. -/
def Characters (tokens : List Token) (values : List UInt32) : Prop :=
  ∀ pair ∈ (conversions tokens).zip values,
    pair.1.conversion = 'c'.toNat → pair.2.toNat.isValidChar

theorem characters_nil (tokens : List Token) : Characters tokens [] := by
  unfold Characters
  rw [List.zip_nil_right]
  exact List.forall_mem_nil _

theorem valid_of_lt {point : Nat} (h : point < 0xD800) : point.isValidChar := Or.inl h

theorem encodable_replicate (count : Nat) {point : Nat} (h : point < 0xD800) :
    Encodable (List.replicate count point) := by
  intro other hmem
  rw [List.eq_of_mem_replicate hmem]
  exact valid_of_lt h

theorem conversion_ascii : ∀ c ∈ CONVERSIONS, c < 0x80 := by decide

theorem sign_encodable (format : Format) (value : Int) : Encodable (signOf format value) := by
  unfold signOf
  split_ifs <;> decide

theorem mark_encodable {format : Format} (h : format.conversion ∈ CONVERSIONS) :
    Encodable (markOf format) := by
  have hascii := conversion_ascii _ h
  unfold markOf
  split
  · exact List.forall_mem_cons.mpr ⟨by decide,
      List.forall_mem_singleton.mpr (valid_of_lt (by omega))⟩
  · exact nofun

theorem formatLong_encodable {format : Format} (value : Int)
    (h : format.conversion ∈ CONVERSIONS) : Encodable (formatLong format value) := by
  have hsign := sign_encodable format value
  have hmark := mark_encodable h
  have hdigits : Encodable (digitsOf format.conversion value.natAbs) := encodable_chars _
  have hzeros : ∀ count, Encodable (List.replicate count '0'.toNat) :=
    fun count => encodable_replicate count (by decide)
  have hblanks : ∀ count, Encodable (List.replicate count ' '.toNat) :=
    fun count => encodable_replicate count (by decide)
  unfold formatLong
  dsimp only
  split_ifs
  all_goals simp only [encodable_append, hsign, hmark, hdigits, hzeros, hblanks, and_self]

theorem formatChar_encodable (format : Format) {value : UInt32} (h : value.toNat.isValidChar) :
    Encodable (formatChar format value.toNat) := by
  have hblanks := @encodable_replicate (format.width - 1) ' '.toNat (by decide)
  unfold formatChar
  split
  · exact List.forall_mem_cons.mpr ⟨h, hblanks⟩
  · exact encodable_append.mpr ⟨hblanks, List.forall_mem_singleton.mpr h⟩

/-- The literals are those of the format, and what is put in for a value is ASCII or
the character of a `%c`. -/
theorem printed_encodable {tokens : List Token} {values : List UInt32}
    (htext : Encodable (text tokens)) (h : Characters tokens values) :
    Encodable (printed tokens values) := by
  induction tokens generalizing values with
  | nil => exact List.forall_mem_nil _
  | cons token tokens ih =>
    obtain ⟨hfirst, hrest⟩ := encodable_append.mp htext
    cases token with
    | literal c plain =>
      exact List.forall_mem_cons.mpr ⟨hfirst c (List.mem_singleton_self c), ih hrest h⟩
    | percent spec =>
      by_cases hescape : spec.conversion = '%'.toNat
      · unfold Characters at h
        rw [conversions_escape hescape] at h
        rw [printed_escape hescape]
        exact List.forall_mem_cons.mpr ⟨by decide, ih hrest h⟩
      · obtain ⟨arg_type, htype⟩ := Option.ne_none_iff_exists'.mp
          fun hnone => hescape ((argType_none spec.conversion_ok).mp hnone)
        cases values with
        | nil =>
          rw [printed.eq_def]
          dsimp only
          rw [htype]
          exact List.forall_mem_nil _
        | cons value values =>
          unfold Characters at h
          rw [conversions_conversion hescape, List.zip_cons_cons, List.forall_mem_cons] at h
          rw [printed_conversion htype, encodable_append]
          refine ⟨?_, ih hrest h.2⟩
          unfold Spec.render
          split
          · next hchar =>
            have hchar_type : argType spec.conversion = some .char := by
              rw [hchar]
              rfl
            rw [Option.some.inj (htype.symm.trans hchar_type)]
            exact formatChar_encodable _ (h.1 hchar)
          · exact formatLong_encodable _ spec.conversion_ok

/-! ## What is printed of a call -/

/-- The line shows the call with its own format. -/
def Shows (image : Image) (call : TraceCall) (line : Line) : Prop :=
  ∃ symbol event text, image.CallOf symbol call ∧ Describes image.trace_section symbol event ∧
    format_record event call.args = some text ∧ line = .record text

/-- The call can be printed as it is to be: an escape only next to a value, no value
that Python refuses, and no surrogate by `%c`. -/
def Clear (image : Image) (call : TraceCall) : Prop :=
  ∀ symbol event, image.CallOf symbol call → Describes image.trace_section symbol event →
    ∃ tokens, text tokens = event.format ∧ Characters tokens call.args ∧
      if call.args = [] then Unescaped tokens else Printable tokens call.args

/-- The line is the format of the call with its values put in. -/
def Prints (image : Image) (call : TraceCall) (line : Line) : Prop :=
  ∃ symbol event tokens, image.CallOf symbol call ∧ Describes image.trace_section symbol event ∧
    text tokens = event.format ∧ line = .record (printed tokens call.args)

theorem print_line_same {line out : Line} (h : print_line line = some out) : out = line := by
  unfold print_line at h
  split at h
  · exact (Option.some.inj h).symm
  · cases h

/-- A format comes from UTF-8. -/
theorem read_format_encodable {trace_section : List UInt8} {symbol : Symbol}
    {format_string : Str} (h : read_format trace_section symbol = .ok format_string) :
    Encodable format_string := by
  unfold read_format at h
  dsimp only at h
  split_ifs at h
  cases hdecode : decode_utf8 _ with
  | none =>
    rw [hdecode] at h
    cases h
  | some found =>
    rw [hdecode] at h
    obtain rfl := Except.ok.inj h
    obtain ⟨chars, -, rfl⟩ := Option.map_eq_some_iff.mp hdecode
    exact encodable_chars _

/-- A format whose call is clear is printed with the values in it. -/
theorem format_record_printed {event : Event} {format_string : Str} {tokens : List Token}
    {values : List UInt32} (hparse : parse_format format_string = .ok event.arg_types)
    (hformat : event.format = format_string) (htext : text tokens = event.format)
    (hcount : event.arg_types.length = values.length)
    (hclear : if values = [] then Unescaped tokens else Printable tokens values) :
    format_record event values = some (printed tokens values) := by
  rw [← hformat, ← htext] at hparse
  have htypes := parse_format_text hparse
  rw [format_record, if_neg (not_not.mpr hcount)]
  dsimp only
  by_cases hnil : values = []
  · rw [if_pos hnil] at hclear
    rw [hnil] at hcount ⊢
    rw [htypes] at hcount
    rw [List.zipWith_nil_right, if_pos rfl, ← htext,
      (text_eq_printed (List.length_eq_zero_iff.mp hcount)).mpr hclear]
  · rw [if_neg hnil] at hclear
    have hvalues : List.zipWith signed event.arg_types values ≠ [] := by
      intro hzip
      have hlength := congrArg List.length hzip
      rw [List.length_zipWith, hcount, Nat.min_self] at hlength
      exact hnil (List.length_eq_zero_iff.mp hlength)
    rw [if_neg hvalues, ← htext, htypes]
    rw [htypes] at hcount
    exact @outcome_of_printable false _ _ hcount.symm Bool.noConfusion Bool.noConfusion hclear

section
variable {mapped : List (Image × Events)} {events : Events}
  (hmapped : ∀ pair ∈ mapped, pair.1.Mapped pair.2)
  (hload : load_events (mapped.map Prod.snd) = .ok events)
include hmapped hload

/-- The number of a call finds the event of its format. -/
theorem call_found {image : Image} (hmem : image ∈ mapped.map Prod.fst) {call : TraceCall}
    (h : image.Traces call) :
    ∃ symbol event, image.CallOf symbol call ∧ Describes image.trace_section symbol event ∧
      events.lookup call.event_id.toNat = some event ∧
      event.arg_types.length = call.args.length := by
  obtain ⟨symbol, hsymbol, hid, hcount⟩ := h
  obtain ⟨⟨image, trace_map⟩, hpair, rfl⟩ := List.mem_map.mp hmem
  obtain ⟨event, hdescribes, hlookup, htypes⟩ :=
    map_finds (hmapped _ hpair).apart (hmapped _ hpair).built hsymbol
  refine ⟨symbol, event, ⟨hsymbol, hid, hcount⟩, hdescribes, ?_, htypes.trans hcount.symm⟩
  rw [hid]
  exact (load_events_lookup hload _ _).mpr
    ⟨trace_map, List.mem_map.mpr ⟨_, hpair, rfl⟩, hlookup⟩

/-- What one record prints: a line that shows its call, or it raises. -/
theorem print_record_call {image : Image} (hmem : image ∈ mapped.map Prod.fst)
    {call : TraceCall} (h : image.Traces call) :
    (∀ line ∈ print_record events (record call), Shows image call line) ∧
      (Clear image call → ∃ line ∈ print_record events (record call), Prints image call line) := by
  obtain ⟨symbol, event, hcall, hdescribes, hlookup, hcount⟩ := call_found hmapped hload hmem h
  have hprint : print_record events (record call) =
      (format_record event call.args).bind fun text => print_line (.record text) := by
    rw [print_record, show (record call).1 = call.event_id from rfl, hlookup]
    rfl
  rw [hprint]
  refine ⟨?_, ?_⟩
  · intro line hline
    obtain ⟨text, htext, hline⟩ := Option.bind_eq_some_iff.mp hline
    exact ⟨symbol, event, text, hcall, hdescribes, htext, print_line_same hline⟩
  · intro hclear
    obtain ⟨tokens, htext, hcharacters, hvalues⟩ := hclear symbol event hcall hdescribes
    obtain ⟨format_string, hformat, hevent⟩ := id hdescribes
    obtain ⟨hparse, hsame, -⟩ := event_of_ok hevent
    have hprinted := format_record_printed hparse hsame htext hcount hvalues
    have hencodable : Encodable (text tokens) := by
      rw [htext, hsame]
      exact read_format_encodable hformat
    refine ⟨.record (printed tokens call.args), ?_, symbol, event, tokens, hcall, hdescribes,
      htext, rfl⟩
    rw [hprinted]
    exact if_pos (printed_encodable hencodable hcharacters)

/-- The calls in order: each prints its line, until one raises. -/
theorem print_records_calls {sent : List (Image × TraceCall)}
    (hsent : ∀ pair ∈ sent, pair.1 ∈ mapped.map Prod.fst ∧ pair.1.Traces pair.2) :
    let printed := print_records events (sent.map fun pair => record pair.2)
    (∃ done, done <+: sent ∧
        List.Forall₂ (fun pair line => Shows pair.1 pair.2 line) done printed.lines ∧
        (printed.raised = false → done = sent)) ∧
      ((∀ pair ∈ sent, Clear pair.1 pair.2) → printed.raised = false ∧
        List.Forall₂ (fun pair line => Prints pair.1 pair.2 line) sent printed.lines) := by
  induction sent with
  | nil => exact ⟨⟨[], List.prefix_refl _, .nil, fun _ => rfl⟩, fun _ => ⟨rfl, .nil⟩⟩
  | cons pair sent ih =>
    obtain ⟨hmem, htraces⟩ := hsent pair (List.mem_cons_self ..)
    obtain ⟨hshows, hprints⟩ := print_record_call hmapped hload hmem htraces
    obtain ⟨⟨done, hprefix, hlines, hall⟩, hclear⟩ :=
      ih fun other hother => hsent other (List.mem_cons_of_mem _ hother)
    intro printed
    have hprinted : printed = ((print_record events (record pair.2)).elim
        (⟨[], true⟩ : Printed) fun line => ⟨[line], false⟩).andThen
          (print_records events (sent.map fun pair => record pair.2)) := rfl
    cases hrecord : print_record events (record pair.2) with
    | none =>
      rw [hrecord] at hprinted hprints
      have hraised : printed = { lines := [], raised := true } := hprinted
      refine ⟨⟨[], List.nil_prefix, ?_, ?_⟩, ?_⟩
      · rw [hraised]
        exact .nil
      · rw [hraised]
        exact nofun
      · intro hall
        obtain ⟨line, hline, -⟩ := hprints (hall pair (List.mem_cons_self ..))
        cases hline
    | some line =>
      rw [hrecord] at hprinted hshows hprints
      obtain ⟨rest, hrest⟩ : ∃ rest, rest =
        print_records events (sent.map fun pair => record pair.2) := ⟨_, rfl⟩
      rw [← hrest] at hprinted hlines hall hclear
      have hadded : printed = { rest with lines := line :: rest.lines } := hprinted
      refine ⟨⟨pair :: done, (List.prefix_cons_inj pair).mpr hprefix, ?_, ?_⟩, ?_⟩
      · rw [hadded]
        exact .cons (hshows line rfl) hlines
      · rw [hadded]
        exact fun hraised => congrArg _ (hall hraised)
      · intro hevery
        obtain ⟨hraised, hrendered⟩ := hclear fun other hother =>
          hevery other (List.mem_cons_of_mem _ hother)
        obtain ⟨shown, hshown, hprint⟩ := hprints (hevery pair (List.mem_cons_self ..))
        rw [Option.mem_some_iff] at hshown
        rw [hadded, hshown]
        exact ⟨hraised, .cons hprint hrendered⟩

end

theorem makes_act {P : TraceCall → Prop} {m : Machine} {call : TraceCall}
    {calls : List TraceCall} {below : List Context} (phase : Phase)
    (hcalls : ∀ other ∈ call :: calls, P other)
    (hbelow : ∀ c ∈ below, ∀ other ∈ trace_pipeline.calls c, P other) :
    Makes P (act m call calls below phase) := by
  have hrest : ∀ other ∈ calls, P other := fun other h => hcalls other (List.mem_cons_of_mem _ h)
  rcases phase with _ | ⟨_, _ | _⟩ | ⟨_, _ | _⟩ | _ | _ | ⟨_ | _, _⟩ | _ | _ | _
  case tested.false => exact List.forall_mem_cons.mpr ⟨hrest, hbelow⟩
  case cleared => exact List.forall_mem_cons.mpr ⟨hrest, hbelow⟩
  all_goals exact List.forall_mem_cons.mpr ⟨hcalls, hbelow⟩

/-- A run with no interrupt makes the calls of the main program. -/
theorem reaches_made {P : TraceCall → Prop} (count : Nat) {mask : Bool} {m : Machine}
    {running : Context} {below : List Context} (hgood : Good mask m running below)
    (hmakes : Makes P m) :
    Relation.ReflTransGen (fun m next => Step m next ∧ Makes P next) m (runTop count m) := by
  induction count generalizing m running below with
  | zero => exact .refl
  | succ count ih =>
    rw [runTop]
    cases hstep : stepTop m with
    | none => exact .refl
    | some next =>
      have hstack := hmakes
      unfold Makes at hstack
      rw [hgood.stack, List.forall_mem_cons] at hstack
      have hnext : Makes P next := by
        rcases stepTop_cases hgood hstep with ⟨interrupted, rest, -, rfl, rfl⟩ |
          ⟨call, calls, rfl, rfl⟩ | ⟨phase, call, calls, rfl, rfl⟩
        · exact hstack.2
        · exact List.forall_mem_cons.mpr ⟨hstack.1, hstack.2⟩
        · exact makes_act phase hstack.1 hstack.2
      obtain ⟨running', below', hgood'⟩ := good_step hgood (.top hstep)
      exact .head ⟨.top hstep, hnext⟩ (ih hgood' hnext)

theorem ran_main {image : Image} {calls : List TraceCall} (count : Nat)
    (hcalls : ∀ call ∈ calls, image.Traces call)
    (hidle : (runTop count (start false calls)).stack = [.idle []]) :
    image.Ran (runTop count (start false calls)) :=
  ⟨hidle, false, calls, hcalls, reaches_made count (good_start false calls)
    (List.forall_mem_singleton.mpr hcalls)⟩

def appImage : Image := ⟨[upSymbol, countSymbol], appSection, 0⟩

def bootImage : Image := ⟨[bootSymbol], bootSection, BOOT_TRACE_ID_BASE⟩

/-- The bootloader says `boot`, and the application `up` and `n=7`. -/
def bootRun : Machine := runTop 30 (start false [.trace_emit0 0x8000])

def appRun : Machine := runTop 60 (start false [.trace_emit0 0, .trace_emit1 3 7])

theorem one_sized (byte : UInt8) : [byte].length = Size.one.bytes := rfl

/-- Every byte in a packet of its own. -/
def bytePackets (bytes : List UInt8) : List Packet :=
  bytes.map fun byte => .software ⟨0, Nat.succ_pos 31⟩ .one [byte] (one_sized byte)

theorem bytePackets_portZero (bytes : List UInt8) :
    (bytePackets bytes).flatMap Packet.portZero = bytes := by
  unfold bytePackets
  induction bytes with
  | nil => rfl
  | cons byte bytes ih =>
    rw [List.map_cons, List.flatMap_cons, ih]
    rfl

theorem bootRun_ran : bootImage.Ran bootRun := by
  apply ran_main
  · intro call hmem
    rw [List.mem_singleton.mp hmem]
    exact ⟨bootSymbol, by simp [bootImage], rfl, rfl⟩
  · rfl

theorem appRun_ran : appImage.Ran appRun := by
  apply ran_main
  · intro call hmem
    rcases List.mem_cons.mp hmem with rfl | hmem
    · exact ⟨upSymbol, by simp [appImage], rfl, rfl⟩
    · rw [List.mem_singleton.mp hmem]
      exact ⟨countSymbol, by simp [appImage], rfl, rfl⟩
  · rfl

theorem clear_described {image : Image} {call : TraceCall} {symbol : Symbol}
    {tokens : List Token} {arg_types : List ArgType}
    (honly : ∀ other, image.CallOf other call → other = symbol)
    (hdescribed : Describes image.trace_section symbol ⟨text tokens, arg_types⟩)
    (hcharacters : Characters tokens call.args)
    (hclear : if call.args = [] then Unescaped tokens else Printable tokens call.args) :
    Clear image call := by
  intro other event hcall hdescribes
  rw [honly other hcall] at hdescribes
  rw [describes_unique hdescribes hdescribed]
  exact ⟨tokens, rfl, hcharacters, hclear⟩

theorem app_symbols {symbol : Symbol} {call : TraceCall} (h : appImage.CallOf symbol call) :
    symbol = upSymbol ∧ call.event_id = 0 ∨ symbol = countSymbol ∧ call.event_id = 3 := by
  obtain ⟨hmem, hid, -⟩ := h
  rcases List.mem_cons.mp hmem with rfl | hmem
  · exact Or.inl ⟨rfl, hid⟩
  · obtain rfl := List.mem_singleton.mp hmem
    exact Or.inr ⟨rfl, hid⟩

end stm32_vibe.trace_pipeline
