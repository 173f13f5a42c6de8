/-
  Token transactions over whole runs.

  The rules of the flow carry the stream along a run; what becomes of a packet
  is read off the outcome of its handler, under the guard that catches what the
  handler throws.
-/
import Concordium.CborBlob
import Concordium.PltPackets

namespace Concordium

open Buffer Wp Runs

section Flow
variable [Platform] {cmd : Command} {s t w : World}

/-! ## The rules of the flow -/

/-- The packets of the flow have opened a stream and brought `got`. -/
def PltReceived (ps : List Command) {first : Command} (o : PltOpening first) (got : Bytes)
    (w : World) : Prop :=
  ∃ rest, ps = first :: rest ∧ got = rest.flatMap Command.data ∧ PltStream o got w

/-- Between packets: nothing has been opened by the empty packets there were, or
    operations are missing. -/
def PltBetween (ps : List Command) (w : World) : Prop :=
  ((w.global.view SignPltContext).state = .unset ∧ ps ≠ [] ∧ ∀ cmd ∈ ps, cmd.data = []) ∨
    ∃ first, ∃ o : PltOpening first, ∃ got, PltReceived ps o got w ∧ got.length < o.total

/-- Under review: all the operations have arrived. -/
def PltUnderReview (ps : List Command) (w : World) : Prop :=
  ∃ first, ∃ o : PltOpening first, ∃ got, PltReceived ps o got w ∧ got.length = o.total ∧
    PltReviewing o got w

theorem PltStream.still {first : Command} {o : PltOpening first} {got : Bytes}
    (h : PltStream o got s) (hst : Still s t) : PltStream o got t := by
  rw [hst]
  exact ⟨h.fits, h.same, h.missing, h.hashed⟩

theorem PltReceived.snoc {ps : List Command} {first : Command} {o : PltOpening first}
    {got : Bytes} (h : PltReceived ps o got s) (ht : PltStream o (got ++ cmd.data) t) :
    PltReceived (ps ++ [cmd]) o (got ++ cmd.data) t := by
  obtain ⟨rest, rfl, rfl, -⟩ := h
  refine ⟨rest ++ [cmd], rfl, ?_, ht⟩
  rw [List.flatMap_append, List.flatMap_singleton]

/-- The operations are missing or complete, according to the reply. -/
theorem PltOutcome.flowing {ps : List Command} {first : Command} {o : PltOpening first}
    {got : Bytes} (h : PltOutcome o got cmd s t) (hs : PltReceived ps o got s)
    (hlt : got.length < o.total) (hp : s.replyPending = true) :
    Flowing insSignPlt (PltBetween (ps ++ [cmd])) (PltUnderReview (ps ++ [cmd])) t := by
  cases h with
  | empty hempty _ ht =>
    subst ht
    obtain ⟨-, -, -, hstream⟩ := id hs
    have hs' : PltStream o (got ++ cmd.data) (s.answered [] swoWrongDataLength) := by
      rw [hempty, List.append_nil]
      exact hstream.still rfl
    refine .of_between rfl (.inr ⟨first, o, _, hs.snoc hs', ?_⟩)
    rwa [hempty, List.append_nil]
  | more hc hmore _ hp' h =>
    refine .of_between hp' (.inr ⟨first, o, _, hs.snoc h, ?_⟩)
    rwa [List.length_append]
  | reviewed hc hdone _ hp' h hr =>
    refine .of_review (hp'.trans hp) ⟨first, o, _, hs.snoc h, ?_, hr⟩
    rwa [List.length_append]
  | refused ht => exact .of_free ht.latch

/-- In front of a stream every packet but an empty one is refused. -/
theorem wp_pltUnopened (hins : cmd.ins = insSignPlt)
    (hstate : (s.global.view SignPltContext).state = .unset) {Q : Unit → World → Prop}
    {E : Exception → World → Prop} (hrefused : ∀ t, PltRefused t → Q () t)
    (hempty : cmd.data = [] → cmd.p1 ≠ pltP1Cont → Q () (s.answered [] swoWrongDataLength)) :
    wp (dispatchInstruction cmd false) Q E s := by
  have hne {state : PltState} (h : state ≠ .unset) :
      (s.global.view SignPltContext).state ≠ state := by
    rw [hstate]
    exact h.symm
  rw [dispatch_plt hins]
  refine wp_if (fun h => ?_) fun _ => ?_
  · rw [ioSendSw, wp_ioSendResponse]
    exact hempty (List.length_eq_zero_iff.mp h.1) h.2
  · unfold handleSignPlt
    rw [if_neg Bool.false_ne_true]
    refine wp_if (fun _ => ?_) fun _ => wp_if (fun _ => ?_) fun _ => wp_pltRefuse hrefused
    · unfold pltInit
      rw [wp_bind, wp_getCtx]
      exact wp_if (fun _ => wp_pltRefuse hrefused) fun h => absurd (hne PltState.noConfusion) h
    · unfold pltCont
      rw [wp_bind, wp_getCtx]
      exact wp_if (fun _ => wp_pltRefuse hrefused) fun h => absurd (hne PltState.noConfusion) h

theorem pltRules : FlowRules insSignPlt PltBetween PltUnderReview where
  still ps s t hst _ _ hI := by
    rcases hI with ⟨hstate, hps, hempty⟩ | ⟨first, o, got, ⟨rest, hps, hgot, hs⟩, hlt⟩
    · refine .inl ⟨?_, hps, hempty⟩
      rw [hst]
      exact hstate
    · exact .inr ⟨first, o, got, ⟨rest, hps, hgot, hs.still hst⟩, hlt⟩
  first cmd s hins hl hp hz _ _ _ := by
    rw [dispatch_plt hins]
    refine wp_if (fun h => ?_) fun _ => ?_
    · rw [ioSendSw, wp_ioSendResponse]
      refine .of_between rfl (.inl ⟨?_, List.cons_ne_nil _ _, fun c hc => ?_⟩)
      · exact (congrArg (fun g => (InstructionContext.view SignPltContext g).state) hz).trans rfl
      · rw [List.mem_singleton.mp hc]
        exact List.length_eq_zero_iff.mp h.1
    · refine wp_pltFirst hz (fun t ht => .of_free ht.latch) (fun o t _ hp hs => ?_)
        (fun _ _ => trivial) fun _ _ => trivial
      exact .of_between hp (.inr ⟨cmd, o, [], ⟨[], rfl, rfl, hs⟩, o.total_le.1⟩)
  next ps cmd s hins hl hp hI := by
    rcases hI with ⟨hstate, hps, hempty⟩ | ⟨first, o, got, hgot, hlt⟩
    · refine wp_pltUnopened hins hstate (fun t ht => .of_free ht.latch) fun hdata _ => ?_
      refine .of_between rfl (.inl ⟨hstate, by simp, fun c hc => ?_⟩)
      rcases List.mem_append.mp hc with hc | hc
      · exact hempty c hc
      · rw [List.mem_singleton.mp hc, hdata]
    · obtain ⟨-, -, -, hs⟩ := id hgot
      exact wp_mono (fun _ t ht => ht.flowing hgot hlt hp) (fun _ _ _ => trivial)
        (wp_pltNext hins hs)
  answer ps c s hc hl hp hr := by
    obtain ⟨_, _, _, -, -, hr⟩ := hr
    exact wp_mono (fun _ _ ht => .of_free ht) (fun _ _ hE => hE)
      (wp_signFlowShared (hr.actions ▸ hc))

/-! ## What becomes of a packet -/

theorem PltStream.answers (hx : ExactTexts) {first : Command} {o : PltOpening first} {got : Bytes}
    (h : PltStream o got w) (hl : w.latch = some insSignPlt) (hins : cmd.ins = insSignPlt) :
    wp (runCommand cmd) (fun _ t => PltOutcome o got cmd (w.delivered.arrived cmd.ins) t)
      (fun _ _ => False) w.delivered := by
  refine wp_runCommand (fun hnone => ?_) (fun _ => ?_) fun ins hsome hne => ?_
  · exact absurd (hl.symm.trans hnone) (Option.some_ne_none _)
  · rw [wp_catching]
    have hs : PltStream o got (w.delivered.arrived cmd.ins) := h.still rfl
    refine wp_mono (fun _ _ ht => ht) (fun e t ht => ?_) (wp_pltNext hins hs)
    rcases ht with ⟨sw, rfl, hdone, hno⟩ | hx'
    · refine ⟨fun sw' _ => ?_, fun he => nomatch he⟩
      rw [wp_endFlow]
      exact .refused ⟨rfl, rfl, .inl rfl⟩ fun _ => ⟨hdone, hno⟩
    · exact absurd hx hx'
  · exact absurd (Option.some.inj (hsome.symm.trans (hl.trans (congrArg some hins.symm)))) hne

/-- What becomes of the first packet: it is refused, or opens a stream. -/
inductive PltOpens (cmd : Command) (t : World) : Prop where
  /-- The dispatcher passes no empty packet on but a continuation. -/
  | empty (hempty : cmd.data = []) (hp1 : cmd.p1 ≠ pltP1Cont) (hg : t.global = .zeroed)
  | opened (o : PltOpening cmd) (hl : t.latch = some insSignPlt) (hp : t.replyPending = false)
    (h : PltStream o [] t)
  | refused (ht : PltRefused t)

theorem plt_opens (hx : ExactTexts) (hl : w.latch = none) (hins : cmd.ins = insSignPlt) :
    wp (runCommand cmd) (fun _ t => PltOpens cmd t) (fun _ _ => False) w.delivered := by
  have hsome {ins : UInt8} (h : w.delivered.txState.currentInstruction = some ins) : False :=
    Option.some_ne_none _ (h.symm.trans hl)
  refine wp_runCommand (fun _ => ?_) (fun h => (hsome h).elim) fun ins h _ => (hsome h).elim
  rw [wp_catching, dispatch_plt hins]
  refine wp_if (fun hempty => ?_) fun _ => ?_
  · rw [ioSendSw, wp_ioSendResponse]
    exact .empty (List.length_eq_zero_iff.mp hempty.1) hempty.2 rfl
  · refine wp_pltFirst rfl (fun t ht => .refused ht) (fun o t hl' hp h => ?_) (fun sw t => ?_)
      fun hno => absurd hx hno
    · exact .opened o (hl'.trans (congrArg some hins)) hp h
    · refine ⟨fun _ _ => ?_, fun he => nomatch he⟩
      rw [wp_endFlow]
      exact .refused ⟨rfl, rfl, .inl rfl⟩

/-! ## Every run -/

/-- Nothing has been opened: there were empty packets only, and any other one is
    refused. -/
structure PltUnopened (packets : List Command) (w : World) : Prop where
  empty : ∀ cmd ∈ packets, cmd.data = []
  next : ∀ cmd, cmd.ins = insSignPlt → wp (runCommand cmd)
    (fun _ t => PltRefused t ∨ cmd.data = [] ∧ cmd.p1 ≠ pltP1Cont) (fun _ _ => False) w.delivered

/-- How a transaction under way stands after its packets, and what becomes of
    the next one. -/
structure PltUnderWay (packets : List Command) (w : World) {first : Command}
    (o : PltOpening first) (rest : List Command) : Prop where
  packets : packets = first :: rest
  stream : PltStream o (rest.flatMap Command.data) w
  /-- A review is owed its answer exactly when all the operations are there. -/
  review : w.replyPending = true ↔ (rest.flatMap Command.data).length = o.total
  complete : (rest.flatMap Command.data).length = o.total →
    PltReviewing o (rest.flatMap Command.data) w
  next : ∀ cmd, cmd.ins = insSignPlt → wp (runCommand cmd)
    (fun _ t => PltOutcome o (rest.flatMap Command.data) cmd (w.delivered.arrived cmd.ins) t)
    (fun _ _ => False) w.delivered

/-- In every run in which reviews are answered once, a first packet is refused
    or opens a stream; a transaction under way has received what its packets
    brought and is reviewed when that is all, and a packet that is refused
    closes it. -/
theorem plt_streaming (hx : ExactTexts) {inputs : List Input}
    (hgate : Along Concordium.step Answers World.start inputs)
    (hrun : runInputs World.start inputs = some w) :
    (w.latch = none → ∀ cmd, cmd.ins = insSignPlt →
      wp (runCommand cmd) (fun _ t => PltOpens cmd t) (fun _ _ => False) w.delivered) ∧
    (w.latch = some insSignPlt → PltUnopened (openPackets inputs) w ∨
      ∃ first, ∃ o : PltOpening first, ∃ rest, PltUnderWay (openPackets inputs) w o rest) := by
  refine ⟨fun hl cmd hins => plt_opens hx hl hins, fun hl => ?_⟩
  have hflow := pltRules.run hgate hrun
  rcases Bool.eq_false_or_eq_true w.replyPending with hp | hp
  · obtain ⟨first, o, got, ⟨rest, hps, rfl, hs⟩, hdone, hr⟩ := hflow.review hl hp
    exact .inr ⟨first, o, rest, hps, hs, ⟨fun _ => hdone, fun _ => hp⟩,
      fun _ => hr, fun cmd hins => hs.answers hx hl hins⟩
  · rcases hflow.between hl hp with ⟨hstate, hne, hempty⟩ | ⟨first, o, got, hgot, hlt⟩
    · refine .inl ⟨hempty, fun cmd hins => ?_⟩
      refine wp_runCommand (fun hnone => ?_) (fun _ => ?_) fun ins hsome hne => ?_
      · exact absurd (hl.symm.trans hnone) (Option.some_ne_none _)
      · rw [wp_catching]
        exact wp_pltUnopened (s := w.delivered.arrived cmd.ins) hins hstate
          (fun t ht => Or.inl ht) fun hdata hp1 => Or.inr ⟨hdata, hp1⟩
      · exact absurd (Option.some.inj (hsome.symm.trans (hl.trans (congrArg some hins.symm)))) hne
    · obtain ⟨rest, hps, rfl, hs⟩ := hgot
      refine .inr ⟨first, o, rest, hps, hs, ⟨fun hp' => ?_, fun hdone => ?_⟩,
        fun hdone => absurd hdone hlt.ne, fun cmd hins => hs.answers hx hl hins⟩
      · exact absurd (hp.symm.trans hp') Bool.false_ne_true
      · exact absurd hdone hlt.ne

end Flow

/-- A first packet that declares the token and the length of its operations. -/
def pltInitPacket (total : ℕ) : Command where
  ins := insSignPlt
  p1 := pltP1Init
  p2 := p2SignTxDefault
  data := 6 :: [44, 919, 0, 0, 0, 0].flatMap (toBe 4) ++
    (List.replicate 32 7 ++ toBe 8 1 ++ toBe 8 500 ++ toBe 4 4 ++ toBe 8 9) ++
    kindPlt :: (3 :: ascii "CCD" ++ toBe 4 total)
  lc_le := by
    rw [show (ascii "CCD") = [67, 67, 68] by decide]
    simp

/-- A packet of operations. -/
def pltContPacket (data : Bytes) : Command :=
  ⟨insSignPlt, pltP1Cont, 0, data.take 255, take_data_le data⟩

/-- One operation: 1.5 tokens are minted. -/
def mintOperations : Bytes :=
  [0x81, 0xa1, 0x64] ++ ascii "mint" ++ [0xa1, 0x66] ++ ascii "amount" ++
    [0xc4, 0x82, 0x21, 0x18, 150]

/-- The operation comes in two packets. -/
def mintInputs : List Input :=
  [.apdu (pltInitPacket 20), .apdu (pltContPacket (mintOperations.take 9)),
    .apdu (pltContPacket (mintOperations.drop 9))]

/-- A transaction that has arrived is under review. -/
theorem plt_streaming_reviewed :
    letI : Platform := cborDevice .nbgl
    ∃ w, runInputs World.start mintInputs = some w ∧ w.latch = some insSignPlt ∧
      w.replyPending = true ∧ line "Amount" "1.5 CCD" ∈ w.screen.rows ∧
      (PltUnopened (openPackets mintInputs) w ∨
        ∃ first, ∃ o : PltOpening first, ∃ rest,
          PltUnderWay (openPackets mintInputs) w o rest) := by
  let : Platform := cborDevice .nbgl
  have hrun : (runInputs World.start mintInputs).any (fun w =>
      decide (w.latch = some insSignPlt ∧ w.replyPending = true ∧
        line "Amount" "1.5 CCD" ∈ w.screen.rows)) = true := by
    decide +kernel
  obtain ⟨w, hw, hstate⟩ := (Option.any_eq_true _ _).mp hrun
  obtain ⟨hlatch, hp, hrow⟩ := of_decide_eq_true hstate
  have hgate : Along Concordium.step Answers World.start mintInputs := by
    decide +kernel
  exact ⟨w, hw, hlatch, hp, hrow,
    (plt_streaming (exactTexts_cborDevice _) hgate hw).2 hlatch⟩

end Concordium
