/-
  How a contract call is streamed.

  Behind its fixed part a contract call carries a name and parameters, each a
  stream behind a length of two bytes.  `ContractPhase` says how far the two
  have been read, and nothing of how they were split into packets; the handlers
  keep the fields that `Streams` reads off the phase.
-/
import Concordium.Flows
import Concordium.Hex
import Concordium.Library.Prefixed

namespace Concordium

open Buffer Wp Prefixed

/-! ## Phases -/

/-- How far a contract call has been read. -/
inductive ContractPhase where
  /-- The first packet was empty: nothing was opened. -/
  | unopened
  /-- The name behind its length, as far as it has arrived. -/
  | inName (got : Bytes)
  /-- The name, and the parameters behind their length as far as they have
      arrived. -/
  | inParams (name got : Bytes)
  | complete (name params : Bytes)
deriving DecidableEq, Repr

/-- A packet of the name or of the parameters; `none` when it is out of place,
    goes beyond the declared length or cannot be displayed. -/
def ContractPhase.feed (phase : ContractPhase) (p1 : UInt8) (chunk : Bytes) :
    Option ContractPhase :=
  match phase with
  | .inName got =>
    if p1 = Contract.p1Name ∧ Fits 2 (got ++ chunk) ∧ isDisplayableText ((got ++ chunk).drop 2)
    then
      some (if Complete 2 (got ++ chunk) then .inParams ((got ++ chunk).drop 2) []
        else .inName (got ++ chunk))
    else none
  | .inParams name got =>
    if p1 = Contract.p1Params ∧ Fits 2 (got ++ chunk) then
      some (if Complete 2 (got ++ chunk) then .complete name ((got ++ chunk).drop 2)
        else .inParams name (got ++ chunk))
    else none
  | .unopened | .complete _ _ => none

theorem ContractPhase.feed_inName {got chunk : Bytes} (hfits : Fits 2 (got ++ chunk))
    (hclean : isDisplayableText ((got ++ chunk).drop 2)) :
    (inName got).feed Contract.p1Name chunk = some (if Complete 2 (got ++ chunk) then
      .inParams ((got ++ chunk).drop 2) [] else .inName (got ++ chunk)) :=
  if_pos ⟨rfl, hfits, hclean⟩

theorem ContractPhase.feed_inName_none {got chunk : Bytes} {p1 : UInt8}
    (h : p1 = Contract.p1Name → Fits 2 (got ++ chunk) →
      isDisplayableText ((got ++ chunk).drop 2) = false) : (inName got).feed p1 chunk = none :=
  if_neg fun hc => absurd ((h hc.1 hc.2.1).symm.trans hc.2.2) Bool.false_ne_true

theorem ContractPhase.feed_inParams (name : Bytes) {got chunk : Bytes}
    (hfits : Fits 2 (got ++ chunk)) :
    (inParams name got).feed Contract.p1Params chunk = some (if Complete 2 (got ++ chunk) then
      .complete name ((got ++ chunk).drop 2) else .inParams name (got ++ chunk)) :=
  if_pos ⟨rfl, hfits⟩

theorem ContractPhase.feed_inParams_none {name got chunk : Bytes} {p1 : UInt8}
    (h : p1 = Contract.p1Params → ¬ Fits 2 (got ++ chunk)) :
    (inParams name got).feed p1 chunk = none :=
  if_neg fun hc => h hc.1 hc.2

/-- A command of the flow; an empty one changes nothing. -/
def ContractPhase.take (phase : ContractPhase) (cmd : Command) : Option ContractPhase :=
  if cmd.data = [] then some phase else phase.feed cmd.p1 cmd.data

/-- Where the packets of a flow lead to. -/
def ContractPhase.reached : List Command → Option ContractPhase
  | [] => none
  | first :: rest => rest.foldlM ContractPhase.take
      (if first.data = [] then .unopened else .inName [])

/-- The bytes behind the fixed part. -/
def ContractPhase.bytes : ContractPhase → Bytes
  | .unopened => []
  | .inName got => got
  | .inParams name got => toBe 2 name.length ++ name ++ got
  | .complete name params => toBe 2 name.length ++ name ++ (toBe 2 params.length ++ params)

/-- Nothing is left to be read. -/
def ContractPhase.isComplete : ContractPhase → Bool
  | .complete _ _ => true
  | _ => false

/-- The bytes read of a stream are none, or an initial part of it. -/
def PartlyRead (got : Bytes) : Prop := got = [] ∨ Fits 2 got ∧ ¬ Complete 2 got

/-- What holds of every phase that is reached. -/
def ContractPhase.Valid : ContractPhase → Prop
  | .unopened => True
  | .inName got => PartlyRead got ∧ isDisplayableText (got.drop 2)
  | .inParams name got => name.length < 256 ^ 2 ∧ isDisplayableText name ∧ PartlyRead got
  | .complete name params =>
    name.length < 256 ^ 2 ∧ isDisplayableText name ∧ params.length < 256 ^ 2

section Feed
variable {phase next : ContractPhase} {p1 : UInt8} {chunk : Bytes} {cmd : Command}

theorem ContractPhase.Valid.feed (h : phase.Valid) (hf : phase.feed p1 chunk = some next) :
    next.Valid := by
  have body {got : Bytes} (hc : Complete 2 got) : (got.drop 2).length < 256 ^ 2 := by
    rw [hc.length_body]
    exact declared_lt
  cases phase with
  | unopened | complete => cases hf
  | inName got =>
    simp only [ContractPhase.feed] at hf
    split_ifs at hf with hcan hdone
    · obtain rfl := Option.some.inj hf
      exact ⟨body hdone, hcan.2.2, .inl rfl⟩
    · obtain rfl := Option.some.inj hf
      exact ⟨.inr ⟨hcan.2.1, hdone⟩, hcan.2.2⟩
  | inParams name got =>
    simp only [ContractPhase.feed] at hf
    split_ifs at hf with hcan hdone
    · obtain rfl := Option.some.inj hf
      exact ⟨h.1, h.2.1, body hdone⟩
    · obtain rfl := Option.some.inj hf
      exact ⟨h.1, h.2.1, .inr ⟨hcan.2, hdone⟩⟩

/-- Nothing of an accepted packet is lost. -/
theorem ContractPhase.bytes_feed (hf : phase.feed p1 chunk = some next) :
    next.bytes = phase.bytes ++ chunk := by
  cases phase with
  | unopened | complete => cases hf
  | inName got =>
    simp only [ContractPhase.feed] at hf
    split_ifs at hf with hcan hdone
    · obtain rfl := Option.some.inj hf
      simp only [bytes, List.append_nil]
      exact hdone.eq.symm
    · obtain rfl := Option.some.inj hf
      rfl
  | inParams name got =>
    simp only [ContractPhase.feed] at hf
    split_ifs at hf with hcan hdone
    · obtain rfl := Option.some.inj hf
      simp only [bytes, List.append_assoc]
      rw [← hdone.eq]
    · obtain rfl := Option.some.inj hf
      simp only [bytes, List.append_assoc]

theorem ContractPhase.Valid.take (h : phase.Valid) (ht : phase.take cmd = some next) :
    next.Valid := by
  unfold ContractPhase.take at ht
  split_ifs at ht
  · exact Option.some.inj ht ▸ h
  · exact h.feed ht

theorem ContractPhase.bytes_take (ht : phase.take cmd = some next) :
    next.bytes = phase.bytes ++ cmd.data := by
  unfold ContractPhase.take at ht
  split_ifs at ht with hnil
  · rw [hnil, List.append_nil, Option.some.inj ht]
  · exact bytes_feed ht

theorem ContractPhase.reached_append {ps : List Command} (h : reached ps = some phase) :
    reached (ps ++ [cmd]) = phase.take cmd := by
  cases ps with
  | nil => cases h
  | cons first rest =>
    rw [reached] at h
    simp [reached, List.foldlM_append, h]

theorem ContractPhase.valid_of_foldlM {start : ContractPhase} {rest : List Command}
    (hs : start.Valid)
    (h : rest.foldlM ContractPhase.take start = some phase) : phase.Valid := by
  induction rest generalizing start with
  | nil => exact Option.some.inj h ▸ hs
  | cons cmd rest ih =>
    rw [List.foldlM_cons] at h
    obtain ⟨next, ht, h⟩ := Option.bind_eq_some_iff.mp h
    exact ih (hs.take ht) h

theorem ContractPhase.bytes_of_foldlM {start : ContractPhase} {rest : List Command}
    (h : rest.foldlM ContractPhase.take start = some phase) :
    phase.bytes = start.bytes ++ rest.flatMap Command.data := by
  induction rest generalizing start with
  | nil =>
    rw [List.flatMap_nil, List.append_nil, Option.some.inj h]
  | cons cmd rest ih =>
    rw [List.foldlM_cons] at h
    obtain ⟨next, ht, h⟩ := Option.bind_eq_some_iff.mp h
    rw [ih h, bytes_take ht, List.flatMap_cons, List.append_assoc]

/-- The phase is read off the packets behind the first one, however the bytes
    were split between them. -/
theorem ContractPhase.bytes_reached {first : Command} {rest : List Command}
    (h : reached (first :: rest) = some phase) : phase.bytes = rest.flatMap Command.data := by
  rw [reached] at h
  rw [bytes_of_foldlM h]
  split_ifs <;> rfl

theorem ContractPhase.valid_reached {ps : List Command} (h : reached ps = some phase) :
    phase.Valid := by
  cases ps with
  | nil => cases h
  | cons first rest =>
    refine valid_of_foldlM ?_ h
    split_ifs
    · trivial
    · exact ⟨.inl rfl, rfl⟩

end Feed

/-! ## What is shown -/

/-- The name as it is shown. -/
def shownName (name : Bytes) : Bytes := if name.length < 256 then name else tooLongText

theorem zero_not_mem_of_displayable {t : Bytes} (h : isDisplayableText t = true) : 0 ∉ t :=
  fun h0 => absurd (List.all_eq_true.mp h 0 h0) (by decide)

/-! ## What the handlers keep -/

section Image
variable (phase : ContractPhase)

/-- The state of the source in a phase. -/
def ContractPhase.state : ContractState :=
  match phase with
  | .unopened => .unset
  | .inName got => if got = [] then .nameFirst else .nameNext
  | .inParams _ got => if got = [] then .paramsFirst else .paramsNext
  | .complete _ _ => .paramsNext

/-- The name, as far as it has arrived. -/
def ContractPhase.nameRead : Bytes :=
  match phase with
  | .unopened => []
  | .inName got => got.drop 2
  | .inParams name _ | .complete name _ => name

/-- The parameters, as far as they have arrived. -/
def ContractPhase.paramsRead : Bytes :=
  match phase with
  | .unopened | .inName _ => []
  | .inParams _ got => got.drop 2
  | .complete _ params => params

/-- The declared length of the name. -/
def ContractPhase.nameLength : ℕ :=
  match phase with
  | .unopened => 0
  | .inName got => declared 2 got
  | .inParams name _ | .complete name _ => name.length

/-- What is still to come of the stream that is being read. -/
def leftOf (got : Bytes) : ℕ := if got = [] then 0 else 2 + declared 2 got - got.length

/-- What the source counts as left of the name. -/
def ContractPhase.nameLeft : ℕ :=
  match phase with
  | .inName got => leftOf got
  | _ => 0

/-- What it counts as left of the parameters. -/
def ContractPhase.paramsLeft : ℕ :=
  match phase with
  | .inParams _ got => leftOf got
  | _ => 0

/-- The text kept for display. -/
def ContractPhase.shown : Bytes :=
  match phase with
  | .unopened => []
  | .inName got => if declared 2 got < 256 then got.drop 2 else []
  | .inParams name _ | .complete name _ => shownName name

/-- How much of the name is kept for display. -/
def ContractPhase.used : ℕ := if phase.nameLength < 256 then phase.nameRead.length else 0

end Image

/-- The fields of the stream, as far as the phase determines them. -/
structure Streams (stream : ContractStream) (phase : ContractPhase) : Prop where
  state : stream.state = phase.state
  nameLength : stream.nameLength = phase.nameLength
  nameLeft : stream.remainingNameLength = phase.nameLeft
  paramsLeft : stream.remainingParamsLength = phase.paramsLeft
  digested : stream.paramsHashCtx = phase.nameRead ++ phase.paramsRead
  shown : stream.nameDisplay.text = phase.shown
  used : stream.nameDisplayUsed = phase.used

section Stream
variable {stream : ContractStream} {phase : ContractPhase} {got name chunk : Bytes} {s : World}
  {E : Exception → World → Prop}

theorem PartlyRead.length (h : PartlyRead got) (hne : got ≠ []) :
    2 ≤ got.length ∧ got.length < 2 + declared 2 got := by
  obtain ⟨⟨hlen, hle⟩, hnot⟩ := h.resolve_left hne
  exact ⟨hlen, lt_of_le_of_ne hle fun heq => hnot ⟨hlen, heq⟩⟩

/-- The name kept for display is a part of the declared name and fits the
    buffer. -/
theorem ContractPhase.Valid.used_le (h : phase.Valid) :
    phase.used ≤ phase.nameLength ∧ phase.used < 256 := by
  have hread : phase.nameRead.length ≤ phase.nameLength := by
    cases phase with
    | unopened => exact Nat.le_refl 0
    | inName got =>
      by_cases hne : got = []
      · simp [nameRead, hne]
      · have := (h.1.length hne).2
        simp only [nameRead, ContractPhase.nameLength, List.length_drop]
        omega
    | inParams | complete => exact Nat.le_refl _
  unfold used
  split_ifs with hshort
  · exact ⟨hread, hread.trans_lt hshort⟩
  · exact ⟨Nat.zero_le _, by decide⟩

theorem streams_unopened : Streams {} .unopened :=
  ⟨rfl, rfl, rfl, rfl, rfl, by decide +kernel, rfl⟩

theorem streams_start : Streams (ContractStream.start {}) (.inName []) :=
  ⟨rfl, rfl, rfl, rfl, rfl, by decide +kernel, rfl⟩

/-! ## Packets -/

/-- A stream that goes on: its part of the packet is the packet, or for the
    first packet what is behind the length. -/
def chunkOffset (got : Bytes) : ℕ := if got = [] then 2 else 0

theorem drop_chunk (chunk : Bytes) (hv : PartlyRead got) :
    (got ++ chunk).drop 2 = got.drop 2 ++ chunk.drop (chunkOffset got) := by
  unfold chunkOffset
  split_ifs with hnil
  · rw [hnil]
    rfl
  · rw [List.drop_append_of_le_length (hv.length hnil).1, List.drop_zero]

theorem fits_first : Fits 2 chunk ↔
    ¬ chunk.length < 2 ∧ ¬ beNat (chunk.take 2) + lengthSize < chunk.length := by
  unfold Fits declared lengthSize
  omega

theorem fits_next (chunk : Bytes) (hv : PartlyRead got) (hne : got ≠ []) :
    declared 2 (got ++ chunk) = declared 2 got ∧
      (Fits 2 (got ++ chunk) ↔ ¬ leftOf got < chunk.length) := by
  obtain ⟨hlen, hlt⟩ := hv.length hne
  have hsame : declared 2 (got ++ chunk) = declared 2 got := declared_append hlen
  refine ⟨hsame, ?_⟩
  unfold Fits leftOf
  rw [hsame, if_neg hne, List.length_append]
  omega

/-- The stream while a packet of the name is taken in: of the name in `all`,
    `kept` has been taken. -/
structure NameOpen (all kept : Bytes) (left : ℕ) (stream : ContractStream) : Prop where
  state : stream.state = .nameNext
  nameLength : stream.nameLength = declared 2 all
  nameLeft : stream.remainingNameLength = left
  paramsLeft : stream.remainingParamsLength = 0
  digested : stream.paramsHashCtx = kept
  shown : stream.nameDisplay.text = if declared 2 all < 256 then kept else []
  used : stream.nameDisplayUsed = if declared 2 all < 256 then kept.length else 0

/-- The name starts behind its length, or goes on. -/
theorem wp_nameHeader {Q : ContractStream × ℕ → World → Prop} (h : Streams stream (.inName got))
    (hv : PartlyRead got)
    (hgo : Fits 2 (got ++ chunk) → ∀ stream', NameOpen (got ++ chunk) (got.drop 2)
      (2 + declared 2 (got ++ chunk) - got.length) stream' → Q (stream', chunkOffset got) s)
    (hno : ¬ Fits 2 (got ++ chunk) → ∀ sw, sw ≠ swoSuccess → E (.statusWord sw) s) :
    wp (nameHeader stream chunk) Q E s := by
  have hshown : stream.nameDisplay.text = if declared 2 got < 256 then got.drop 2 else [] :=
    h.shown
  have hused : stream.nameDisplayUsed = if declared 2 got < 256 then (got.drop 2).length else 0 :=
    h.used
  have hdigested : stream.paramsHashCtx = got.drop 2 := h.digested.trans (List.append_nil _)
  unfold nameHeader
  by_cases hnil : got = []
  · subst hnil
    rw [List.nil_append] at hgo hno
    refine wp_if (fun _ => ?_) fun hnot => absurd h.state hnot
    simp only [wp_bind, wp_throwIf, wp_u2be, wp_pure, List.drop_zero]
    refine ⟨fun hshort => hno (fun hf => (fits_first.mp hf).1 hshort) _ (by decide), fun hlen =>
      ⟨fun _ => ⟨fun hlong => hno (fun hf => (fits_first.mp hf).2 hlong) _ (by decide),
        fun hfits => ?_⟩, fun hno => absurd (Nat.le_of_not_lt hlen) (by simpa using hno)⟩⟩
    exact hgo (fits_first.mpr ⟨hlen, hfits⟩) _ ⟨rfl, rfl, Nat.add_comm _ _, h.paramsLeft,
      hdigested, by simpa using hshown, by simpa using hused⟩
  · obtain ⟨hsame, hfits⟩ := fits_next chunk hv hnil
    have hstate : stream.state = .nameNext := h.state.trans (if_neg hnil)
    have hleft : stream.remainingNameLength = leftOf got := h.nameLeft
    rw [← hleft] at hfits
    rw [if_neg (by rw [hstate]; exact ContractState.noConfusion)]
    simp only [wp_bind, wp_throwIf, wp_pure]
    refine ⟨fun hlong => hno (fun hf => hfits.mp hf hlong) _ (by decide), fun hle => ?_⟩
    have hQ := hgo (hfits.mpr hle) stream
    rw [hsame, chunkOffset, if_neg hnil] at hQ
    exact hQ ⟨hstate, hsame ▸ h.nameLength, hleft.trans (if_neg hnil), h.paramsLeft, hdigested,
      hsame ▸ hshown, hsame ▸ hused⟩

/-- The parameters start behind their length, or go on. -/
theorem wp_paramsHeader {Q : ContractStream × ℕ → World → Prop}
    (h : Streams stream (.inParams name got)) (hv : PartlyRead got)
    (hgo : Fits 2 (got ++ chunk) → ∀ paramsLength, Q ({ stream with
      paramsLength := paramsLength
      remainingParamsLength := 2 + declared 2 (got ++ chunk) - got.length
      state := .paramsNext }, chunkOffset got) s)
    (hno : ¬ Fits 2 (got ++ chunk) → ∀ sw, sw ≠ swoSuccess → E (.statusWord sw) s) :
    wp (paramsHeader stream chunk) Q E s := by
  unfold paramsHeader
  by_cases hnil : got = []
  · subst hnil
    rw [List.nil_append] at hgo hno
    refine wp_if (fun _ => ?_) fun hnot => absurd h.state hnot
    simp only [wp_bind, wp_throwIf, wp_u2be, wp_pure, List.drop_zero]
    refine ⟨fun hshort => hno (fun hf => (fits_first.mp hf).1 hshort) _ (by decide), fun hlen =>
      ⟨fun _ => ⟨fun hlong => hno (fun hf => (fits_first.mp hf).2 hlong) _ (by decide),
        fun hfits => ?_⟩, fun hno => absurd (Nat.le_of_not_lt hlen) (by simpa using hno)⟩⟩
    have hQ := hgo (fits_first.mpr ⟨hlen, hfits⟩) (beNat (chunk.take 2))
    rwa [List.length_nil, Nat.sub_zero, Nat.add_comm] at hQ
  · obtain ⟨hsame, hfits⟩ := fits_next chunk hv hnil
    have hstate : stream.state = .paramsNext := h.state.trans (if_neg hnil)
    have hleft : stream.remainingParamsLength = leftOf got := h.paramsLeft
    rw [← hleft] at hfits
    rw [if_neg (by rw [hstate]; exact ContractState.noConfusion)]
    simp only [wp_bind, wp_throwIf, wp_pure]
    refine ⟨fun hlong => hno (fun hf => hfits.mp hf hlong) _ (by decide), fun hle => ?_⟩
    have hsame_stream : ({ stream with
        paramsLength := stream.paramsLength
        remainingParamsLength := leftOf got
        state := .paramsNext } : ContractStream) = stream := by
      rw [← hleft, ← hstate]
    have hQ := hgo (hfits.mpr hle) stream.paramsLength
    rw [leftOf, if_neg hnil] at hsame_stream
    rw [hsame, hsame_stream, chunkOffset, if_neg hnil] at hQ
    exact hQ

theorem wp_nameHeader_refuses {Q : ContractStream × ℕ → World → Prop} (h : Streams stream phase)
    (hc : chunk ≠ []) (hphase : ∀ got, phase ≠ .inName got)
    (hno : ∀ sw, sw ≠ swoSuccess → E (.statusWord sw) s) : wp (nameHeader stream chunk) Q E s := by
  have hpos : 0 < chunk.length := List.length_pos_iff.mpr hc
  have hplace : stream.state ≠ .nameFirst ∧ stream.remainingNameLength = 0 := by
    rw [h.state, h.nameLeft]
    cases phase with
    | unopened | complete => exact ⟨ContractState.noConfusion, rfl⟩
    | inName got => exact absurd rfl (hphase got)
    | inParams name got =>
      refine ⟨?_, rfl⟩
      simp only [ContractPhase.state]
      split_ifs <;> exact ContractState.noConfusion
  unfold nameHeader
  rw [if_neg hplace.1]
  simp only [wp_bind, wp_throwIf]
  exact ⟨fun _ => hno _ (by decide), fun hle => absurd hpos (by omega)⟩

theorem wp_paramsHeader_refuses {Q : ContractStream × ℕ → World → Prop} (h : Streams stream phase)
    (hc : chunk ≠ []) (hphase : ∀ name got, phase ≠ .inParams name got)
    (hno : ∀ sw, sw ≠ swoSuccess → E (.statusWord sw) s) :
    wp (paramsHeader stream chunk) Q E s := by
  have hpos : 0 < chunk.length := List.length_pos_iff.mpr hc
  have hplace : stream.state ≠ .paramsFirst ∧ stream.remainingParamsLength = 0 := by
    rw [h.state, h.paramsLeft]
    cases phase with
    | unopened | complete => exact ⟨ContractState.noConfusion, rfl⟩
    | inParams name got => exact absurd rfl (hphase name got)
    | inName got =>
      refine ⟨?_, rfl⟩
      simp only [ContractPhase.state]
      split_ifs <;> exact ContractState.noConfusion
  unfold paramsHeader
  rw [if_neg hplace.1]
  simp only [wp_bind, wp_throwIf]
  exact ⟨fun _ => hno _ (by decide), fun hle => absurd hpos (by omega)⟩

/-- A chunk of the name is digested, and kept when the whole name fits. -/
theorem wp_retainName {Q : ContractStream → World → Prop} {all kept : Bytes} {left : ℕ}
    (h : NameOpen all kept left stream) (h0 : 0 ∉ chunk)
    (hroom : (kept ++ chunk).length ≤ declared 2 all)
    (hQ : ∀ stream', NameOpen all (kept ++ chunk) left stream' → Q stream' s) :
    wp (retainName stream chunk) Q E s := by
  unfold retainName
  refine wp_if (fun hnil => ?_) fun _ => wp_if (fun hshort => ?_) fun hlong => ?_
  · rw [hnil, List.append_nil] at hQ
    exact hQ _ h
  · have hshort : declared 2 all < 256 := h.nameLength ▸ hshort
    have hshown : stream.nameDisplay.text = kept := h.shown.trans (if_pos hshort)
    have hused : stream.nameDisplayUsed = stream.nameDisplay.text.length := by
      rw [h.used, if_pos hshort, hshown]
    simp only [wp_bind, wp_memmove, wp_pure]
    refine ⟨fun hw => hQ _ ⟨h.state, h.nameLength, h.nameLeft, h.paramsLeft, by rw [h.digested],
      ?_, ?_⟩, fun hno => absurd hroom fun hroom => hno ?_⟩
    · simp only [hused] at hw ⊢
      rw [text_append h0, hshown, if_pos hshort]
    · rw [if_pos hshort, List.length_append, ← hshown, ← hused]
    · rw [hused, hshown]
      simp only [List.length_append, List.length_singleton] at hroom ⊢
      omega
  · have hlong : ¬ declared 2 all < 256 := h.nameLength ▸ hlong
    have hshown := h.shown
    have hused := h.used
    rw [if_neg hlong] at hshown hused
    rw [wp_pure]
    refine hQ _ ⟨h.state, h.nameLength, h.nameLeft, h.paramsLeft, by rw [h.digested], ?_, ?_⟩
    · rw [if_neg hlong]
      exact hshown
    · rw [if_neg hlong]
      exact hused

section Open
variable {all : Bytes} {left : ℕ}

theorem NameOpen.moved (h : NameOpen all name left stream) (k : ℕ) :
    NameOpen all name (left - k)
      { stream with remainingNameLength := stream.remainingNameLength - k } :=
  ⟨h.state, h.nameLength, congrArg (· - k) h.nameLeft, h.paramsLeft, h.digested, h.shown, h.used⟩

theorem NameOpen.streams (h : NameOpen all (all.drop 2) (leftOf all) stream) (hne : all ≠ []) :
    Streams stream (.inName all) :=
  ⟨h.state.trans (if_neg hne).symm, h.nameLength, h.nameLeft, h.paramsLeft,
    h.digested.trans (List.append_nil _).symm, h.shown, h.used⟩

/-- A name that is complete: next come the parameters. -/
theorem NameOpen.finished (h : NameOpen all (all.drop 2) 0 stream) (hdone : Complete 2 all)
    {display : Buf 256} (hdisplay : display.text = shownName (all.drop 2)) :
    Streams { stream with nameDisplay := display, state := .paramsFirst }
      (.inParams (all.drop 2) []) where
  state := rfl
  nameLength := h.nameLength.trans hdone.length_body.symm
  nameLeft := h.nameLeft
  paramsLeft := h.paramsLeft
  digested := h.digested.trans (List.append_nil _).symm
  shown := hdisplay
  used := by
    have hused := h.used
    rw [← hdone.length_body] at hused
    exact hused

end Open

theorem displayable_append {bs cs : Bytes} :
    isDisplayableText (bs ++ cs) = (isDisplayableText bs && isDisplayableText cs) :=
  List.all_append

/-- A packet of the name: hashed, digested and kept for display when it goes on
    from what has been read, refused before any of that otherwise. -/
theorem wp_contractNamePacket {setStream : ContractStream → App Unit}
    {inj : ContractStream → InstructionContext} {Q : Unit → World → Prop}
    (hset : ∀ stream (t : World) (Q : Unit → World → Prop),
      wp (setStream stream) Q E t = Q () { t with global := inj stream })
    (h : Streams stream phase) (hv : phase.Valid) (hc : chunk ≠ [])
    (hgo : ∀ next stream', phase.feed Contract.p1Name chunk = some next → Streams stream' next →
      Q () (s.streamedOn chunk (inj stream')))
    (hno : phase.feed Contract.p1Name chunk = none → ∀ stream',
      Q () (s.declined (inj stream') errorInvalidTransaction))
    (hthrow : phase.feed Contract.p1Name chunk = none → ∀ sw, sw ≠ swoSuccess →
      E (.statusWord sw) s) :
    wp (contractNamePacket stream setStream chunk) Q E s := by
  have outside (hphase : ∀ got, phase ≠ .inName got) :
      wp (contractNamePacket stream setStream chunk) Q E s := by
    unfold contractNamePacket
    rw [wp_bind]
    refine wp_nameHeader_refuses h hc hphase (hthrow ?_)
    cases phase with
    | unopened | complete => rfl
    | inName got => exact absurd rfl (hphase got)
    | inParams name got => exact ContractPhase.feed_inParams_none fun hp => absurd hp (by decide)
  cases phase with
  | unopened => exact outside fun _ => ContractPhase.noConfusion
  | inParams => exact outside fun _ => ContractPhase.noConfusion
  | complete => exact outside fun _ => ContractPhase.noConfusion
  | inName got =>
    obtain ⟨hpart, hclean⟩ := hv
    have hdrop := drop_chunk chunk hpart
    have hdisplay : isDisplayableText ((got ++ chunk).drop 2) =
        isDisplayableText (chunk.drop (chunkOffset got)) := by
      rw [hdrop, displayable_append, hclean, Bool.true_and]
    unfold contractNamePacket
    rw [wp_bind]
    refine wp_nameHeader h hpart (fun hfits stream hopen => ?_) fun hfits =>
      hthrow (ContractPhase.feed_inName_none fun _ h => absurd h hfits)
    refine wp_if (fun hdirty => ?_) fun hclean' => ?_
    · have hdirty : isDisplayableText (chunk.drop (chunkOffset got)) = false := by
        simpa using hdirty
      rw [wp_bind, hset, wp_sendRejection]
      exact hno (ContractPhase.feed_inName_none fun _ _ => hdisplay.trans hdirty) _
    · have hclean' : isDisplayableText (chunk.drop (chunkOffset got)) = true := by
        simpa using hclean'
      have hfeed := ContractPhase.feed_inName hfits (hdisplay.trans hclean')
      have hread : ((got ++ chunk).drop 2).length ≤ declared 2 (got ++ chunk) := by
        rw [List.length_drop]
        have := hfits.2
        omega
      rw [wp_bind, wp_updateHash, wp_bind]
      refine wp_retainName hopen (zero_not_mem_of_displayable hclean') (hdrop ▸ hread)
        fun stream hkept => ?_
      rw [← hdrop] at hkept
      have hmoved := hkept.moved chunk.length
      have hleft : 2 + declared 2 (got ++ chunk) - got.length - chunk.length =
          leftOf (got ++ chunk) := by
        rw [leftOf, if_neg (List.append_ne_nil_of_right_ne_nil _ hc), List.length_append,
          Nat.sub_sub]
      have hdone : Complete 2 (got ++ chunk) ↔ ¬ 0 < leftOf (got ++ chunk) := by
        rw [leftOf, if_neg (List.append_ne_nil_of_right_ne_nil _ hc)]
        exact ⟨fun h => by have := h.2; omega, fun h => ⟨hfits.1, by have := hfits.2; omega⟩⟩
      rw [hleft] at hmoved
      revert hmoved
      generalize ({ stream with
        remainingNameLength := stream.remainingNameLength - chunk.length } : ContractStream) =
          stream
      intro hmoved
      refine wp_if (fun hmore => ?_) fun hlast => ?_
      · rw [hmoved.nameLeft] at hmore
        rw [if_neg (fun h => hdone.mp h hmore)] at hfeed
        rw [wp_bind, hset]
        exact hgo _ _ hfeed (hmoved.streams (List.append_ne_nil_of_right_ne_nil _ hc))
      · rw [hmoved.nameLeft] at hlast
        have hcomplete := hdone.mpr hlast
        rw [if_pos hcomplete] at hfeed
        rw [Nat.eq_zero_of_not_pos hlast] at hmoved
        rw [wp_bind]
        refine wp_if (fun hlong : 256 ≤ stream.nameLength => ?_)
          fun hshort : ¬ 256 ≤ stream.nameLength => ?_
        · rw [hmoved.nameLength, ← hcomplete.length_body] at hlong
          simp only [wp_bind, wp_memmove]
          refine ⟨fun hw => ?_, fun hno => absurd (by decide) hno⟩
          rw [hset]
          refine hgo _ _ hfeed (hmoved.finished hcomplete ?_)
          rw [Buf.text_write hw (by decide), shownName, if_neg (by omega)]
        · rw [hmoved.nameLength, ← hcomplete.length_body] at hshort
          rw [wp_pure, wp_bind, hset]
          refine hgo _ _ hfeed (hmoved.finished hcomplete ?_)
          rw [hmoved.shown, ← hcomplete.length_body, if_pos (by omega), shownName,
            if_pos (by omega)]

/-- A packet of the parameters: hashed and digested when it goes on from what
    has been read, refused before any of that otherwise.  The last one leads to
    the review. -/
theorem wp_contractParamsPacket [Platform] {setStream : ContractStream → App Unit}
    {display : App Unit} {inj : ContractStream → InstructionContext} {Q : Unit → World → Prop}
    (hset : ∀ stream (t : World) (Q : Unit → World → Prop),
      wp (setStream stream) Q E t = Q () { t with global := inj stream })
    (h : Streams stream phase) (hv : phase.Valid) (hc : chunk ≠ [])
    (hgo : ∀ next stream', phase.feed Contract.p1Params chunk = some next →
      next.isComplete = false → Streams stream' next → Q () (s.streamedOn chunk (inj stream')))
    (hreview : ∀ name params stream',
      phase.feed Contract.p1Params chunk = some (.complete name params) →
      Streams stream' (.complete name params) →
      stream'.paramsHashDisplay.text = hexUpper (Platform.sha256 (name ++ params)).bytes →
      wp display Q E { s with
        global := inj stream'
        txState := { s.txState with hash := s.txState.hash ++ chunk }
        log := s.log ++ [.hashUpdate chunk] })
    (hthrow : phase.feed Contract.p1Params chunk = none → ∀ sw, sw ≠ swoSuccess →
      E (.statusWord sw) s) :
    wp (contractParamsPacket stream setStream display chunk) Q E s := by
  have outside (hphase : ∀ name got, phase ≠ .inParams name got) :
      wp (contractParamsPacket stream setStream display chunk) Q E s := by
    unfold contractParamsPacket
    rw [wp_bind]
    refine wp_paramsHeader_refuses h hc hphase (hthrow ?_)
    cases phase with
    | unopened | complete => rfl
    | inName got => exact ContractPhase.feed_inName_none fun hp => absurd hp (by decide)
    | inParams name got => exact absurd rfl (hphase name got)
  cases phase with
  | unopened => exact outside fun _ _ => ContractPhase.noConfusion
  | inName => exact outside fun _ _ => ContractPhase.noConfusion
  | complete => exact outside fun _ _ => ContractPhase.noConfusion
  | inParams name got =>
    obtain ⟨hlength, -, hpart⟩ := hv
    have hdrop := drop_chunk chunk hpart
    have hne : got ++ chunk ≠ [] := List.append_ne_nil_of_right_ne_nil _ hc
    unfold contractParamsPacket
    rw [wp_bind]
    refine wp_paramsHeader h hpart (fun hfits paramsLength => ?_) fun hfits =>
      hthrow (ContractPhase.feed_inParams_none fun _ => hfits)
    have hfeed := ContractPhase.feed_inParams name hfits
    have hleft : 2 + declared 2 (got ++ chunk) - got.length - chunk.length =
        leftOf (got ++ chunk) := by
      rw [leftOf, if_neg hne, List.length_append, Nat.sub_sub]
    have hdone : Complete 2 (got ++ chunk) ↔ ¬ 0 < leftOf (got ++ chunk) := by
      rw [leftOf, if_neg hne]
      exact ⟨fun h => by have := h.2; omega, fun h => ⟨hfits.1, by have := hfits.2; omega⟩⟩
    have hdigested : stream.paramsHashCtx ++ chunk.drop (chunkOffset got) =
        name ++ (got ++ chunk).drop 2 := by
      rw [h.digested, hdrop, List.append_assoc]
      rfl
    simp only [wp_bind, wp_updateHash, hdigested, hleft]
    refine wp_if (fun hmore => ?_) fun hlast => ?_
    · rw [if_neg (fun h => hdone.mp h hmore)] at hfeed
      rw [wp_bind, hset]
      exact hgo _ _ hfeed rfl ⟨(if_neg hne).symm, h.nameLength, h.nameLeft, rfl, rfl,
        h.shown, h.used⟩
    · rw [if_pos (hdone.mpr hlast)] at hfeed
      rw [wp_bind]
      refine wp_formatHexInto (by rw [Buf.bytes_length]) fun digest hdigest => ?_
      rw [wp_bind, hset]
      exact hreview _ _ _ hfeed ⟨rfl, h.nameLength, h.nameLeft, Nat.eq_zero_of_not_pos hlast, rfl,
        h.shown, h.used⟩ hdigest

end Stream

end Concordium
