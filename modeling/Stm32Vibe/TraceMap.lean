-- The trace maps: what the extractor makes of the symbols and the section of an
-- image, and the events that the decoder loads from the maps of several images.
import Mathlib.Data.List.AList
import Stm32Vibe.FormatRecord

namespace stm32_vibe.trace_map

open percent_format trace_format

/-! ## The extractor -/

/-- A symbol as `read_symbols` gives it. -/
structure Symbol where
  section_offset : Nat
  size : Nat
  argument_count : Nat
  symbol_name : String
deriving DecidableEq, Repr

/-- The events of a map, each under its number. -/
abbrev Events := AList fun _ : Nat => Event

/-- What `build_map` raises. -/
inductive MapError where
  | exceeds (symbol_name : String)
  | outside (symbol_name : String)
  | unterminated (symbol_name : String)
  /-- `UnicodeDecodeError`. -/
  | undecodable
  | format (symbol_name : String) (error : FormatError)
  | mismatch (symbol_name : String) (expected supplied : Nat)

/-- The text of an error that `build_map` makes; `repr` quotes a string. -/
def MapError.text (repr : Str → String) : MapError → Option String
  | .exceeds symbol_name => symbol_name ++ ": trace ID exceeds 16 bits"
  | .outside symbol_name => symbol_name ++ ": symbol lies outside .trace_fmt"
  | .unterminated symbol_name => symbol_name ++ ": format string is not null terminated"
  | .undecodable => none
  | .format symbol_name error => error.text symbol_name repr
  | .mismatch symbol_name expected supplied =>
    symbol_name ++ ": format expects " ++ toString expected ++ " arguments, TRACE call supplies " ++
      toString supplied

/-- `decode("utf-8")`. -/
def decode_utf8 (data : List UInt8) : Option Str :=
  data.toByteArray.utf8Decode?.map fun chars => chars.toList.map Char.toNat

def read_format (trace_section : List UInt8) (symbol : Symbol) : Except MapError Str :=
  if symbol.section_offset + symbol.size > trace_section.length then
    .error (.outside symbol.symbol_name)
  else
    let raw_format := (trace_section.drop symbol.section_offset).take symbol.size
    if raw_format.getLast? ≠ some 0 then .error (.unterminated symbol.symbol_name)
    else (decode_utf8 raw_format.dropLast).elim (.error .undecodable) .ok

/-- The event of a format, if its call supplies as many arguments. -/
def event_of (symbol : Symbol) (format_string : Str) : Except MapError Event := do
  let arg_types ← (parse_format format_string).mapError (.format symbol.symbol_name)
  if arg_types.length ≠ symbol.argument_count then
    .error (.mismatch symbol.symbol_name arg_types.length symbol.argument_count)
  else .ok { format := format_string, arg_types }

/-- One turn of the loop of `build_map`. -/
def add_symbol (trace_section : List UInt8) (id_base : Nat) (events : Events) (symbol : Symbol) :
    Except MapError Events := do
  let event_id := id_base + symbol.section_offset
  if event_id > 0xFFFF then .error (.exceeds symbol.symbol_name)
  else
    let format_string ← read_format trace_section symbol
    let event ← event_of symbol format_string
    .ok (events.insert event_id event)

def build_map (symbols : List Symbol) (trace_section : List UInt8) (id_base : Nat) :
    Except MapError Events :=
  symbols.foldlM (add_symbol trace_section id_base) ∅

/-! ## The loader -/

/-- The items of a map file, which has its keys sorted. -/
def items (events : Events) : List (Sigma fun _ : Nat => Event) :=
  events.entries.mergeSort fun first second => toString first.1 ≤ toString second.1

/-- One item of a map. The error is a number that is there already. -/
def add_item (events : Events) (item : Sigma fun _ : Nat => Event) : Except Nat Events :=
  if item.1 ∈ events then .error item.1 else .ok (events.insert item.1 item.2)

def add_map (events trace_map : Events) : Except Nat Events :=
  (items trace_map).foldlM add_item events

def load_events (maps : List Events) : Except Nat Events := maps.foldlM add_map ∅

/-- `TRACE_DETAIL_ID`: the address of the format in its section, above the base. -/
def TRACE_DETAIL_ID (id_base : Nat) (symbol : Symbol) : UInt16 :=
  (id_base + symbol.section_offset).toUInt16

/-! ## The events of a map -/

/-- The event of a symbol. -/
def Describes (trace_section : List UInt8) (symbol : Symbol) (event : Event) : Prop :=
  ∃ format_string, read_format trace_section symbol = .ok format_string ∧
    event_of symbol format_string = .ok event

theorem describes_unique {trace_section : List UInt8} {symbol : Symbol} {event other : Event}
    (h : Describes trace_section symbol event) (hother : Describes trace_section symbol other) :
    event = other := by
  obtain ⟨format_string, hformat, hevent⟩ := h
  obtain ⟨format_string', hformat', hevent'⟩ := hother
  rw [hformat] at hformat'
  cases hformat'
  exact Except.ok.inj (hevent.symm.trans hevent')

/-- No two symbols overlap. -/
def Apart (symbols : List Symbol) : Prop :=
  symbols.Pairwise fun first second =>
    first.section_offset + first.size ≤ second.section_offset ∨
      second.section_offset + second.size ≤ first.section_offset

theorem bind_ok {ε α β : Type} {x : Except ε α} {f : α → Except ε β} {b : β}
    (h : x >>= f = .ok b) : ∃ a, x = .ok a ∧ f a = .ok b := by
  cases x with
  | error error => cases h
  | ok a => exact ⟨a, rfl, h⟩

theorem event_of_ok {symbol : Symbol} {format_string : Str} {event : Event}
    (h : event_of symbol format_string = .ok event) :
    parse_format format_string = .ok event.arg_types ∧ event.format = format_string ∧
      event.arg_types.length = symbol.argument_count := by
  obtain ⟨arg_types, htypes, hevent⟩ := bind_ok h
  have hparse : parse_format format_string = .ok arg_types := by
    cases hparse : parse_format format_string with
    | error error => rw [hparse] at htypes; cases htypes
    | ok found => rw [hparse] at htypes; exact congrArg _ (Except.ok.inj htypes)
  by_cases hcount : arg_types.length = symbol.argument_count
  · rw [if_neg (not_not.mpr hcount)] at hevent
    cases hevent
    exact ⟨hparse, rfl, hcount⟩
  · rw [if_pos hcount] at hevent
    cases hevent

theorem read_format_ok {trace_section : List UInt8} {symbol : Symbol} {format_string : Str}
    (h : read_format trace_section symbol = .ok format_string) :
    0 < symbol.size ∧ symbol.section_offset + symbol.size ≤ trace_section.length := by
  unfold read_format at h
  dsimp only at h
  split at h
  · cases h
  · split at h
    · cases h
    · rename_i hinside hterminated
      refine ⟨Nat.pos_of_ne_zero ?_, by omega⟩
      intro hzero
      simp [hzero] at hterminated

theorem add_symbol_ok {trace_section : List UInt8} {id_base : Nat} {events next : Events}
    {symbol : Symbol} (h : add_symbol trace_section id_base events symbol = .ok next) :
    id_base + symbol.section_offset ≤ 0xFFFF ∧
      ∃ event, Describes trace_section symbol event ∧
        next = events.insert (id_base + symbol.section_offset) event := by
  unfold add_symbol at h
  dsimp only at h
  by_cases hid : id_base + symbol.section_offset > 0xFFFF
  · rw [if_pos hid] at h
    cases h
  · rw [if_neg hid] at h
    obtain ⟨format_string, hformat, h⟩ := bind_ok h
    obtain ⟨event, hevent, h⟩ := bind_ok h
    cases h
    exact ⟨by omega, event, ⟨format_string, hformat, hevent⟩, rfl⟩

section
variable {trace_section : List UInt8} {id_base : Nat}

/-- The loop of `build_map`: each symbol has its event, and nothing else is there. -/
theorem add_symbols {symbols : List Symbol} {start final : Events} (hapart : Apart symbols)
    (h : symbols.foldlM (add_symbol trace_section id_base) start = .ok final) :
    (∀ symbol ∈ symbols, id_base + symbol.section_offset ≤ 0xFFFF ∧
        ∃ event, Describes trace_section symbol event ∧
          final.lookup (id_base + symbol.section_offset) = some event) ∧
      ∀ id, (∀ symbol ∈ symbols, id ≠ id_base + symbol.section_offset) →
        final.lookup id = start.lookup id := by
  induction symbols generalizing start with
  | nil =>
    cases h
    exact ⟨nofun, fun _ _ => rfl⟩
  | cons symbol symbols ih =>
    rw [List.foldlM_cons] at h
    obtain ⟨next, hnext, h⟩ := bind_ok h
    obtain ⟨hid, event, hdescribes, rfl⟩ := add_symbol_ok hnext
    obtain ⟨hfirst, hrest⟩ := List.pairwise_cons.mp hapart
    obtain ⟨hall, hothers⟩ := ih hrest h
    have hnew : ∀ other ∈ symbols,
        id_base + symbol.section_offset ≠ id_base + other.section_offset := by
      intro other hmem hsame
      obtain ⟨-, -, ⟨format_string, hother, -⟩, -⟩ := hall other hmem
      obtain ⟨format_string, hformat, -⟩ := hdescribes
      have hsize := (read_format_ok hformat).1
      have hsize' := (read_format_ok hother).1
      have hplace := hfirst other hmem
      omega
    refine ⟨?_, ?_⟩
    · intro other hmem
      rcases List.mem_cons.mp hmem with rfl | hmem
      · refine ⟨hid, event, hdescribes, ?_⟩
        rw [hothers _ hnew, AList.lookup_insert]
      · exact hall other hmem
    · intro id hid
      rw [hothers id fun other hmem => hid other (List.mem_cons_of_mem _ hmem),
        AList.lookup_insert_ne (hid symbol (List.mem_cons_self ..))]

theorem build_map_ok {symbols : List Symbol} {trace_map : Events} (hapart : Apart symbols)
    (h : build_map symbols trace_section id_base = .ok trace_map) :
    (∀ symbol ∈ symbols, id_base + symbol.section_offset ≤ 0xFFFF ∧
        ∃ event, Describes trace_section symbol event ∧
          trace_map.lookup (id_base + symbol.section_offset) = some event) ∧
      ∀ id ∈ trace_map, ∃ symbol ∈ symbols, id = id_base + symbol.section_offset := by
  obtain ⟨hall, hothers⟩ := add_symbols hapart h
  refine ⟨hall, ?_⟩
  intro id hmem
  by_contra hnone
  have hempty := hothers id fun symbol hsymbol hid => hnone ⟨symbol, hsymbol, hid⟩
  have hsome := AList.lookup_isSome.mpr hmem
  rw [hempty] at hsome
  cases hsome

end

/-- What the compiler puts down for a format. -/
def format_bytes (chars : List Char) : List UInt8 := chars.flatMap String.utf8EncodeChar ++ [0]

theorem decode_utf8_encode (chars : List Char) :
    decode_utf8 (chars.flatMap String.utf8EncodeChar) = some (chars.map Char.toNat) := by
  have hdecode := @List.utf8Decode?_utf8Encode chars
  unfold List.utf8Encode at hdecode
  rw [decode_utf8, hdecode]
  simp

/-- The extractor reads the format that was put down. -/
theorem describes_placed {symbol : Symbol} {chars : List Char} {before after : List UInt8}
    {arg_types : List ArgType} (hoffset : symbol.section_offset = before.length)
    (hsize : symbol.size = (format_bytes chars).length)
    (hparse : parse_format (chars.map Char.toNat) = .ok arg_types)
    (hcount : arg_types.length = symbol.argument_count) :
    Describes (before ++ format_bytes chars ++ after) symbol
      { format := chars.map Char.toNat, arg_types } := by
  refine ⟨chars.map Char.toNat, ?_, ?_⟩
  · unfold read_format
    rw [if_neg (by simp [hoffset, hsize])]
    dsimp only
    rw [hoffset, hsize, List.append_assoc, List.drop_left, List.take_left]
    simp [format_bytes, decode_utf8_encode]
  · unfold event_of
    rw [hparse]
    exact if_neg (not_not.mpr hcount)

/-- A map is built of symbols that all have an event and a number. -/
theorem build_map_total {symbols : List Symbol} {trace_section : List UInt8} {id_base : Nat}
    (h : ∀ symbol ∈ symbols, id_base + symbol.section_offset ≤ 0xFFFF ∧
      ∃ event, Describes trace_section symbol event) :
    ∃ trace_map, build_map symbols trace_section id_base = .ok trace_map := by
  have hall : ∀ start : Events, ∃ final,
      symbols.foldlM (add_symbol trace_section id_base) start = .ok final := by
    induction symbols with
    | nil => exact fun start => ⟨start, rfl⟩
    | cons symbol symbols ih =>
      intro start
      obtain ⟨hid, event, format_string, hformat, hevent⟩ := h symbol (List.mem_cons_self ..)
      have hadds : add_symbol trace_section id_base start symbol =
          .ok (start.insert (id_base + symbol.section_offset) event) := by
        unfold add_symbol
        dsimp only
        rw [if_neg (by omega), hformat]
        simp only [bind, Except.bind, hevent]
      rw [List.foldlM_cons, hadds]
      exact ih (fun other hmem => h other (List.mem_cons_of_mem _ hmem)) _
  exact hall ∅

/-! ## The events of several maps -/

theorem add_items {found : List (Sigma fun _ : Nat => Event)} {start final : Events}
    (h : found.foldlM add_item start = .ok final) :
    (∀ id event, event ∈ final.lookup id ↔ event ∈ start.lookup id ∨ ⟨id, event⟩ ∈ found) ∧
      ∀ item ∈ found, item.1 ∉ start := by
  induction found generalizing start with
  | nil =>
    cases h
    exact ⟨fun id event => by simp, nofun⟩
  | cons item found ih =>
    rw [List.foldlM_cons] at h
    obtain ⟨next, hnext, h⟩ := bind_ok h
    obtain ⟨hall, hnew⟩ := ih h
    unfold add_item at hnext
    by_cases hthere : item.1 ∈ start
    · rw [if_pos hthere] at hnext
      cases hnext
    · rw [if_neg hthere] at hnext
      cases hnext
      refine ⟨?_, ?_⟩
      · intro id event
        rw [hall, List.mem_cons]
        by_cases hid : id = item.1
        · subst hid
          rw [AList.lookup_insert, AList.lookup_eq_none.mpr hthere]
          simp [Sigma.ext_iff, eq_comm]
        · rw [AList.lookup_insert_ne hid]
          simp [Sigma.ext_iff, hid]
      · intro other hmem
        rcases List.mem_cons.mp hmem with rfl | hmem
        · exact hthere
        · intro hstart
          exact hnew other hmem ((AList.mem_insert _).mpr (Or.inr hstart))

theorem add_items_new {found : List (Sigma fun _ : Nat => Event)} {start : Events}
    (hdistinct : found.Pairwise fun first second => first.1 ≠ second.1)
    (hnew : ∀ item ∈ found, item.1 ∉ start) : ∃ final, found.foldlM add_item start = .ok final := by
  induction found generalizing start with
  | nil => exact ⟨start, rfl⟩
  | cons item found ih =>
    obtain ⟨hfirst, hrest⟩ := List.pairwise_cons.mp hdistinct
    obtain ⟨final, hfinal⟩ := @ih (start.insert item.1 item.2) hrest fun other hmem hthere => by
      rcases (AList.mem_insert _).mp hthere with hsame | hstart
      · exact hfirst other hmem hsame.symm
      · exact hnew other (List.mem_cons_of_mem _ hmem) hstart
    refine ⟨final, ?_⟩
    rw [List.foldlM_cons, add_item, if_neg (hnew item (List.mem_cons_self ..))]
    exact hfinal

theorem mem_items (trace_map : Events) (item : Sigma fun _ : Nat => Event) :
    item ∈ items trace_map ↔ item.2 ∈ trace_map.lookup item.1 := by
  rw [items, List.mem_mergeSort, AList.mem_lookup_iff]

theorem items_distinct (trace_map : Events) :
    (items trace_map).Pairwise fun first second => first.1 ≠ second.1 := by
  have hperm := List.mergeSort_perm trace_map.entries fun first second =>
    decide (toString first.1 ≤ toString second.1)
  refine (hperm.pairwise_iff fun h => h.symm).mpr ?_
  exact List.pairwise_map.mp trace_map.nodupKeys

theorem add_map_ok {events trace_map next : Events} (h : add_map events trace_map = .ok next) :
    (∀ id event, event ∈ next.lookup id ↔
        event ∈ events.lookup id ∨ event ∈ trace_map.lookup id) ∧
      ∀ id ∈ trace_map, id ∉ events := by
  obtain ⟨hall, hnew⟩ := add_items h
  refine ⟨fun id event => ?_, fun id hmem => ?_⟩
  · rw [hall, mem_items]
  · obtain ⟨event, hevent⟩ := Option.isSome_iff_exists.mp (AList.lookup_isSome.mpr hmem)
    exact hnew ⟨id, event⟩ ((mem_items _ _).mpr hevent)

/-- What is loaded after some maps. -/
theorem add_maps {maps : List Events} {start final : Events}
    (h : maps.foldlM add_map start = .ok final) :
    (∀ id event, event ∈ final.lookup id ↔
        event ∈ start.lookup id ∨ ∃ trace_map ∈ maps, event ∈ trace_map.lookup id) ∧
      (∀ trace_map ∈ maps, ∀ id ∈ trace_map, id ∉ start) ∧
      maps.Pairwise fun first second => ∀ id ∈ second, id ∉ first := by
  induction maps generalizing start with
  | nil =>
    cases h
    exact ⟨fun id event => by simp, nofun, .nil⟩
  | cons trace_map maps ih =>
    rw [List.foldlM_cons] at h
    obtain ⟨next, hnext, h⟩ := bind_ok h
    obtain ⟨hadded, hnew⟩ := add_map_ok hnext
    obtain ⟨hall, hothers, hpairs⟩ := ih h
    have hgrows : ∀ id, id ∈ start ∨ id ∈ trace_map → id ∈ next := by
      intro id hid
      rw [← AList.lookup_isSome, Option.isSome_iff_exists]
      rcases hid with hid | hid
      · obtain ⟨event, hevent⟩ := Option.isSome_iff_exists.mp (AList.lookup_isSome.mpr hid)
        exact ⟨event, (hadded id event).mpr (Or.inl hevent)⟩
      · obtain ⟨event, hevent⟩ := Option.isSome_iff_exists.mp (AList.lookup_isSome.mpr hid)
        exact ⟨event, (hadded id event).mpr (Or.inr hevent)⟩
    refine ⟨?_, ?_, List.pairwise_cons.mpr ⟨?_, hpairs⟩⟩
    · intro id event
      rw [hall, hadded]
      simp [or_assoc]
    · intro other hmem id hid hstart
      rcases List.mem_cons.mp hmem with rfl | hmem
      · exact hnew id hid hstart
      · exact hothers other hmem id hid (hgrows id (Or.inl hstart))
    · exact fun other hmem id hid hthere => hothers other hmem id hid (hgrows id (Or.inr hthere))

/-- Maps load together exactly when no number is in two of them. -/
theorem load_events_ok_iff (maps : List Events) :
    (∃ events, load_events maps = .ok events) ↔
      maps.Pairwise fun first second => ∀ id ∈ second, id ∉ first := by
  constructor
  · rintro ⟨events, h⟩
    exact (add_maps h).2.2
  · intro hpairs
    have hall : ∀ (maps : List Events) (start : Events),
        (maps.Pairwise fun first second => ∀ id ∈ second, id ∉ first) →
        (∀ trace_map ∈ maps, ∀ id ∈ trace_map, id ∉ start) →
        ∃ events, maps.foldlM add_map start = .ok events := by
      intro maps
      induction maps with
      | nil => exact fun start _ _ => ⟨start, rfl⟩
      | cons trace_map maps ih =>
        intro start hpairs hnew
        obtain ⟨hfirst, hrest⟩ := List.pairwise_cons.mp hpairs
        obtain ⟨next, hnext⟩ := @add_items_new (items trace_map) start (items_distinct trace_map)
          fun item hmem => hnew trace_map (List.mem_cons_self ..) item.1
            (AList.lookup_isSome.mp (Option.isSome_of_mem ((mem_items _ _).mp hmem)))
        obtain ⟨hadded, -⟩ := add_map_ok hnext
        obtain ⟨events, hevents⟩ := ih next hrest fun other hmem id hid hthere => by
          obtain ⟨event, hevent⟩ := Option.isSome_iff_exists.mp (AList.lookup_isSome.mpr hthere)
          rcases (hadded id event).mp hevent with hstart | hfound
          · exact hnew other (List.mem_cons_of_mem _ hmem) id hid
              (AList.lookup_isSome.mp (Option.isSome_of_mem hstart))
          · exact hfirst other hmem id hid
              (AList.lookup_isSome.mp (Option.isSome_of_mem hfound))
        refine ⟨events, ?_⟩
        rw [List.foldlM_cons, add_map, hnext]
        exact hevents
    exact hall maps ∅ hpairs fun _ _ _ _ hempty => AList.notMem_empty _ hempty

theorem load_events_lookup {maps : List Events} {events : Events}
    (h : load_events maps = .ok events) (id : Nat) (event : Event) :
    event ∈ events.lookup id ↔ ∃ trace_map ∈ maps, event ∈ trace_map.lookup id := by
  rw [(add_maps h).1]
  simp

/-! ## The two images -/

/-- `TRACE_ID_BASE` of the bootloader. -/
def BOOT_TRACE_ID_BASE : Nat := 0x8000

/-- What the linker asserts of `.trace_fmt`. -/
def TRACE_FMT_LIMIT : Nat := 0x8000

section
variable {symbols : List Symbol} {trace_section : List UInt8} {id_base : Nat} {trace_map : Events}

/-- In an image that keeps the limit, the numbers of a map are all in one half. -/
theorem map_range (hapart : Apart symbols)
    (h : build_map symbols trace_section id_base = .ok trace_map)
    (hlimit : trace_section.length ≤ TRACE_FMT_LIMIT) {id : Nat} (hid : id ∈ trace_map) :
    id_base ≤ id ∧ id < id_base + TRACE_FMT_LIMIT := by
  obtain ⟨hall, hsymbols⟩ := build_map_ok hapart h
  obtain ⟨symbol, hmem, rfl⟩ := hsymbols id hid
  obtain ⟨-, -, ⟨format_string, hformat, -⟩, -⟩ := hall symbol hmem
  have hread := read_format_ok hformat
  unfold TRACE_FMT_LIMIT at hlimit ⊢
  omega

/-- The number that a `TRACE` of the image emits finds the event of its format. -/
theorem map_finds (hapart : Apart symbols)
    (h : build_map symbols trace_section id_base = .ok trace_map) {symbol : Symbol}
    (hmem : symbol ∈ symbols) :
    ∃ event, Describes trace_section symbol event ∧
      trace_map.lookup (TRACE_DETAIL_ID id_base symbol).toNat = some event ∧
      event.arg_types.length = symbol.argument_count := by
  obtain ⟨hid, event, hdescribes, hlookup⟩ := (build_map_ok hapart h).1 symbol hmem
  obtain ⟨format_string, hformat, hevent⟩ := hdescribes
  refine ⟨event, ⟨format_string, hformat, hevent⟩, ?_, (event_of_ok hevent).2.2⟩
  rwa [TRACE_DETAIL_ID, UInt16.toNat_ofNat_of_lt' (Nat.lt_succ_of_le hid)]

end

section
variable {app_symbols boot_symbols : List Symbol} {app_section boot_section : List UInt8}
  {app_map boot_map : Events}

/-- The numbers of the application and those of the bootloader are in different halves. -/
theorem halves_load (happ_apart : Apart app_symbols) (hboot_apart : Apart boot_symbols)
    (happ_limit : app_section.length ≤ TRACE_FMT_LIMIT)
    (hboot_limit : boot_section.length ≤ TRACE_FMT_LIMIT)
    (happ : build_map app_symbols app_section 0 = .ok app_map)
    (hboot : build_map boot_symbols boot_section BOOT_TRACE_ID_BASE = .ok boot_map)
    {maps : List Events} (hmaps : maps.Perm [app_map, boot_map]) :
    ∃ events, load_events maps = .ok events := by
  have hapart : ∀ id, id ∈ app_map → id ∉ boot_map := by
    intro id happ_id hboot_id
    have hlow := map_range happ_apart happ happ_limit happ_id
    have hhigh := map_range hboot_apart hboot hboot_limit hboot_id
    unfold TRACE_FMT_LIMIT at hlow hhigh
    unfold BOOT_TRACE_ID_BASE at hhigh
    omega
  have hpairs : maps.Pairwise fun first second => ∀ id, id ∈ first → id ∉ second := by
    refine (hmaps.pairwise_iff fun h id hsecond hfirst => h id hfirst hsecond).mpr ?_
    simpa using hapart
  exact (load_events_ok_iff maps).mpr
    (hpairs.imp fun h id hsecond hfirst => h id hfirst hsecond)

end

/-- The maps of the bootloader and of an application load together, in either order,
and the number of every `TRACE` of the two finds its own format there, with as many
arguments as the call has. -/
theorem maps_load {app_symbols boot_symbols : List Symbol} {app_section boot_section : List UInt8}
    {app_map boot_map : Events} (happ_apart : Apart app_symbols) (hboot_apart : Apart boot_symbols)
    (happ_limit : app_section.length ≤ TRACE_FMT_LIMIT)
    (hboot_limit : boot_section.length ≤ TRACE_FMT_LIMIT)
    (happ : build_map app_symbols app_section 0 = .ok app_map)
    (hboot : build_map boot_symbols boot_section BOOT_TRACE_ID_BASE = .ok boot_map)
    {maps : List Events} (hmaps : maps.Perm [app_map, boot_map]) :
    ∃ events, load_events maps = .ok events ∧
      (∀ symbol ∈ app_symbols, ∃ event, Describes app_section symbol event ∧
        events.lookup (TRACE_DETAIL_ID 0 symbol).toNat = some event ∧
        event.arg_types.length = symbol.argument_count) ∧
      ∀ symbol ∈ boot_symbols, ∃ event, Describes boot_section symbol event ∧
        events.lookup (TRACE_DETAIL_ID BOOT_TRACE_ID_BASE symbol).toNat = some event ∧
        event.arg_types.length = symbol.argument_count := by
  obtain ⟨events, hload⟩ :=
    halves_load happ_apart hboot_apart happ_limit hboot_limit happ hboot hmaps
  have hfound : ∀ trace_map, trace_map = app_map ∨ trace_map = boot_map → ∀ id event,
      trace_map.lookup id = some event → events.lookup id = some event := by
    intro trace_map hwhich id event hevent
    refine (load_events_lookup hload id event).mpr ⟨trace_map, hmaps.mem_iff.mpr ?_, hevent⟩
    simpa using hwhich
  refine ⟨events, hload, ?_, ?_⟩
  · intro symbol hmem
    obtain ⟨event, hdescribes, hlookup, hcount⟩ := map_finds happ_apart happ hmem
    exact ⟨event, hdescribes, hfound app_map (Or.inl rfl) _ _ hlookup, hcount⟩
  · intro symbol hmem
    obtain ⟨event, hdescribes, hlookup, hcount⟩ := map_finds hboot_apart hboot hmem
    exact ⟨event, hdescribes, hfound boot_map (Or.inr rfl) _ _ hlookup, hcount⟩

/-- `up` and `n=%d` in the application, `boot` in the bootloader. -/
def upSymbol : Symbol := ⟨0, 3, 0, "trace_format_0_0"⟩

def countSymbol : Symbol := ⟨3, 5, 1, "trace_format_1_1"⟩

def bootSymbol : Symbol := ⟨0, 5, 0, "trace_format_0_0"⟩

def appSection : List UInt8 := format_bytes ['u', 'p'] ++ format_bytes ['n', '=', '%', 'd']

def bootSection : List UInt8 := format_bytes ['b', 'o', 'o', 't']

theorem parse_tokens {tokens : List Token} (h : (types tokens).length ≤ 4) :
    parse_format (text tokens) = .ok (types tokens) := by
  rw [parse_format, parseLoop_text]
  exact if_neg (Nat.not_lt.mpr h)

def upFormat : List Token := [.literal 'u'.toNat (by decide), .literal 'p'.toNat (by decide)]

def bootFormat : List Token :=
  [.literal 'b'.toNat (by decide), .literal 'o'.toNat (by decide), .literal 'o'.toNat (by decide),
    .literal 't'.toNat (by decide)]

theorem up_described : Describes appSection upSymbol ⟨text upFormat, []⟩ :=
  @describes_placed upSymbol ['u', 'p'] [] (format_bytes ['n', '=', '%', 'd']) [] rfl rfl
    (@parse_tokens upFormat (by decide)) rfl

theorem count_described : Describes appSection countSymbol ⟨text countFormat, [.i32]⟩ := by
  have hplaced := @describes_placed countSymbol ['n', '=', '%', 'd'] (format_bytes ['u', 'p'])
    [] [.i32] rfl rfl (@parse_tokens countFormat (by decide)) rfl
  rwa [List.append_nil] at hplaced

theorem boot_described : Describes bootSection bootSymbol ⟨text bootFormat, []⟩ := by
  have hplaced := @describes_placed bootSymbol ['b', 'o', 'o', 't'] [] [] [] rfl rfl
    (@parse_tokens bootFormat (by decide)) rfl
  rwa [List.append_nil] at hplaced

theorem app_built : ∃ app_map, build_map [upSymbol, countSymbol] appSection 0 = .ok app_map := by
  refine build_map_total fun symbol hmem => ?_
  rcases List.mem_cons.mp hmem with rfl | hmem
  · exact ⟨by decide, _, up_described⟩
  · rw [List.mem_singleton.mp hmem]
    exact ⟨by decide, _, count_described⟩

theorem boot_built : ∃ boot_map,
    build_map [bootSymbol] bootSection BOOT_TRACE_ID_BASE = .ok boot_map := by
  refine build_map_total fun symbol hmem => ?_
  rw [List.mem_singleton.mp hmem]
  exact ⟨by decide, _, boot_described⟩

theorem app_apart : Apart [upSymbol, countSymbol] := by simp [Apart, upSymbol, countSymbol]

theorem boot_apart : Apart [bootSymbol] := by simp [Apart]

theorem maps_load_small : ∃ app_map boot_map events,
    load_events [boot_map, app_map] = .ok events ∧
      (∀ symbol ∈ [upSymbol, countSymbol], ∃ event, Describes appSection symbol event ∧
        events.lookup (TRACE_DETAIL_ID 0 symbol).toNat = some event ∧
        event.arg_types.length = symbol.argument_count) ∧
      ∀ symbol ∈ [bootSymbol], ∃ event, Describes bootSection symbol event ∧
        events.lookup (TRACE_DETAIL_ID BOOT_TRACE_ID_BASE symbol).toNat = some event ∧
        event.arg_types.length = symbol.argument_count := by
  obtain ⟨app_map, happ⟩ := app_built
  obtain ⟨boot_map, hboot⟩ := boot_built
  obtain ⟨events, hload, hfound⟩ := maps_load app_apart boot_apart (by decide)
    (by decide) happ hboot (List.Perm.swap ..)
  exact ⟨app_map, boot_map, events, hload, hfound⟩

end stm32_vibe.trace_map
