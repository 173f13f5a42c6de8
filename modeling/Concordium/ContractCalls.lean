/-
  Contract calls over whole runs.

  INIT_CONTRACT and UPDATE_CONTRACT differ in their opening packet and in their
  review.  `ContractFlow` is what they share; its rules carry the phase of a
  call along a run.
-/
import Concordium.ContractPackets

namespace Concordium

open Buffer Union Wp Runs

/-! ## The two flows -/

section Flows
variable [Platform] {cmd : Command} {s : World}

theorem wp_openContract {kind : UInt8} {Q : Bytes → World → Prop}
    (h : ∀ account dp log header rest, HeaderShown account header →
      Q rest { s with
        accountSender := account
        derivationPath := dp
        txState := { s.txState with hash := header ++ [kind] }
        log := log }) :
    wp (openContract cmd kind) Q (fun _ _ => True) s := by
  unfold openContract
  rw [wp_bind, wp_sha256Init, wp_bind]
  refine wp_parseDerivationPath (fun _ _ => trivial) fun dp log _ => ?_
  simp only [wp_bind, wp_throwIf, wp_advance, implies_true, true_and, and_true]
  intro _ _
  refine wp_hashAccountTransactionHeaderAndKind (fun _ _ => trivial) (fun _ _ => trivial)
    fun account log _ hheader _ _ => ?_
  simp only [wp_bind, wp_throwIf, wp_advance, implies_true, true_and, and_true]
  intro _ _
  exact h account dp log _ _ hheader

/-- The bytes of an INIT_CONTRACT payload in front of the name. -/
def initContractSize : ℕ := 60 + 1 + 8 + 32

/-- The bytes of an UPDATE_CONTRACT payload in front of the name. -/
def updateContractSize : ℕ := 60 + 1 + 8 + 8 + 8

/-- The opening packet has been hashed. -/
structure Opened (size : ℕ) (s t : World) (stream : ContractStream) : Prop where
  reply : t.replyPending = false
  latch : t.latch = s.latch
  hashed : t.txState.hash.length = size
  stream : Streams stream (.inName [])

theorem wp_initContractInitial (hz : s.global = .zeroed) :
    wp (initContractInitial cmd) (fun _ t => ∃ ctx : InitContract, t.global = .initContract ctx ∧
      Opened initContractSize s t ctx.stream) (fun _ _ => True) s := by
  unfold initContractInitial
  rw [wp_bind]
  refine wp_openContract fun account dp log header cdata hheader => ?_
  simp only [wp_bind, wp_getCtx, wp_throwIf, wp_slice, wp_updateHash, wp_u8be, List.drop_zero,
    implies_true, true_and, and_true]
  intro hamount _ _
  refine wp_reads _ (fun text _ => ?_) fun _ _ => trivial
  simp only [wp_bind, wp_memmove, wp_advance, wp_throwIf, wp_slice, wp_updateHash, implies_true,
    true_and, and_true]
  intro _ _ hmodule _ _
  refine wp_formatHexInto (by rw [Buf.bytes_length]) fun moduleRefDisplay _ => ?_
  rw [wp_bind, wp_setCtx]
  refine ⟨_, rfl, rfl, rfl, ?_, ?_⟩
  · simp only [List.length_append, List.length_take, List.length_drop, List.length_singleton,
      List.drop_zero, hheader.length, initContractSize] at hamount hmodule ⊢
    omega
  · rw [hz, InstructionContext.view_zeroed]
    exact streams_start

theorem wp_updateContractInitial (hz : s.global = .zeroed) :
    wp (updateContractInitial cmd) (fun _ t => ∃ ctx : UpdateContract,
      t.global = .updateContract ctx ∧ Opened updateContractSize s t ctx.stream)
      (fun _ _ => True) s := by
  unfold updateContractInitial
  rw [wp_bind]
  refine wp_openContract fun account dp log header cdata hheader => ?_
  simp only [wp_bind, wp_getCtx, wp_throwIf, wp_slice, wp_updateHash, wp_u8be, List.drop_zero,
    implies_true, true_and, and_true]
  intro hamount _ _
  refine wp_reads _ (fun text _ => ?_) fun _ _ => trivial
  simp only [wp_bind, wp_memmove, wp_advance, wp_throwIf, wp_slice, wp_updateHash, wp_u8be,
    implies_true, true_and, and_true]
  intro _ _ hindex _ _
  refine wp_reads _ (fun index _ => ?_) fun _ _ => trivial
  simp only [wp_bind, wp_memmove, wp_advance, wp_throwIf, wp_slice, wp_updateHash, wp_u8be,
    implies_true, true_and, and_true]
  intro _ _ hsubIndex _ _
  refine wp_reads _ (fun subIndex _ => ?_) fun _ _ => trivial
  simp only [wp_bind, wp_memmove, wp_setCtx, implies_true, and_true]
  intro _
  refine ⟨_, rfl, rfl, rfl, ?_, ?_⟩
  · simp only [List.length_append, List.length_take, List.length_drop, List.length_singleton,
      List.drop_zero, hheader.length, updateContractSize] at hamount hindex hsubIndex ⊢
    omega
  · rw [hz, InstructionContext.view_zeroed]
    exact streams_start

/-- The rows of the INIT_CONTRACT review behind the account. -/
def initContractRows (ctx : InitContract) : List Row :=
  [row "Amount" ctx.amountDisplay.text, row "Module ref" ctx.moduleRefDisplay.text,
    row "Contract name" ctx.stream.nameDisplay.text,
    row "Payload hash" ctx.stream.paramsHashDisplay.text]

/-- The rows of the UPDATE_CONTRACT review behind the account. -/
def updateContractRows (ctx : UpdateContract) : List Row :=
  [row "Amount" ctx.amountDisplay.text, row "Index" ctx.indexDisplay.text,
    row "Sub index" ctx.subIndexDisplay.text,
    row "Receive name" ctx.stream.nameDisplay.text,
    row "Payload hash" ctx.stream.paramsHashDisplay.text]

/-- The INIT_CONTRACT review. -/
def initContractReview (w : World) : List Row :=
  accountReview (line "Review Transaction \nto initialize contract" "")
    (line "Review transaction to" "initialize contract") "Sender"
    "Sign transaction\nto initialize contract" w.accountSender
    (initContractRows (w.global.view InitContract))

/-- The UPDATE_CONTRACT review. -/
def updateContractReview (w : World) : List Row :=
  accountReview (line "Review Transaction \nto update contract" "")
    (line "Review transaction to" "update contract") "Sender"
    "Sign transaction\nto update contract" w.accountSender
    (updateContractRows (w.global.view UpdateContract))

theorem wp_uiInitContractDisplay {Q : Unit → World → Prop} {E : Exception → World → Prop} :
    wp uiInitContractDisplay Q E s = Q () (s.reviewed (initContractReview s)) := by
  unfold uiInitContractDisplay
  simp only [wp_bind, wp_getCtx, wp_get]
  cases hb : (Platform.backend : Backend) with
  | nbgl =>
    simp only [nbglSignReview, nbglReview, wp_showScreen, initContractReview, accountReview, hb]
    rfl
  | bagl =>
    simp only [wp_showScreen, initContractReview, accountReview, hb]
    rfl

theorem wp_uiUpdateContractDisplay {Q : Unit → World → Prop} {E : Exception → World → Prop} :
    wp uiUpdateContractDisplay Q E s = Q () (s.reviewed (updateContractReview s)) := by
  unfold uiUpdateContractDisplay
  simp only [wp_bind, wp_getCtx, wp_get]
  cases hb : (Platform.backend : Backend) with
  | nbgl =>
    simp only [nbglSignReview, nbglReview, wp_showScreen, updateContractReview, accountReview, hb]
    rfl
  | bagl =>
    simp only [wp_showScreen, updateContractReview, accountReview, hb]
    rfl

/-- An instruction that streams a contract call. -/
structure ContractFlow where
  ins : UInt8
  /-- The bytes in front of the name. -/
  size : ℕ
  Ctx : Type
  [member : Member InstructionContext Ctx]
  streamOf : Ctx → ContractStream
  withStream : Ctx → ContractStream → Ctx
  streamOf_withStream : ∀ ctx stream, streamOf (withStream ctx stream) = stream
  streamOf_default : streamOf default = {}
  initial : Command → App Unit
  display : App Unit
  rows : World → List Row
  wp_initial : ∀ cmd (s : World), s.global = .zeroed → wp (initial cmd)
    (fun _ t => Opened size s t (streamOf (t.global.view Ctx))) (fun _ _ => True) s
  wp_display : ∀ (s : World) (Q : Unit → World → Prop) (E : Exception → World → Prop),
    wp display Q E s = Q () (s.reviewed (rows s))
  rows_still : ∀ s t : World, t.accountSender = s.accountSender → t.global = s.global →
    rows t = rows s
  dispatch : ∀ cmd isInitialCall, cmd.ins = ins → dispatchInstruction cmd isInitialCall =
    withData cmd (do
      if cmd.p1 = Contract.p1Initial ∧ isInitialCall then initial cmd
      else
        let ctx ← getCtx Ctx
        let setStream (stream : ContractStream) : App Unit := setCtx (withStream ctx stream)
        if cmd.p1 = Contract.p1Name then contractNamePacket (streamOf ctx) setStream cmd.data
        else if cmd.p1 = Contract.p1Params then
          contractParamsPacket (streamOf ctx) setStream display cmd.data
        else throw (.statusWord errorInvalidState))

attribute [instance] ContractFlow.member

/-- The stream of INIT_CONTRACT. -/
def initContractFlow : ContractFlow where
  ins := insInitContract
  size := initContractSize
  Ctx := InitContract
  streamOf ctx := ctx.stream
  withStream ctx stream := { ctx with stream := stream }
  streamOf_withStream _ _ := rfl
  streamOf_default := rfl
  initial := initContractInitial
  display := uiInitContractDisplay
  rows := initContractReview
  wp_initial cmd s hz := by
    refine wp_mono (fun _ t ht => ?_) (fun _ _ h => h) (wp_initContractInitial hz)
    obtain ⟨ctx, hg, hopened⟩ := ht
    rw [hg]
    exact hopened
  wp_display _ _ _ := wp_uiInitContractDisplay
  rows_still s t ha hg := by unfold initContractReview; rw [ha, hg]
  dispatch cmd isInitialCall hins := by
    unfold dispatchInstruction
    rw [hins]
    rfl

/-- The stream of UPDATE_CONTRACT. -/
def updateContractFlow : ContractFlow where
  ins := insUpdateContract
  size := updateContractSize
  Ctx := UpdateContract
  streamOf ctx := ctx.stream
  withStream ctx stream := { ctx with stream := stream }
  streamOf_withStream _ _ := rfl
  streamOf_default := rfl
  initial := updateContractInitial
  display := uiUpdateContractDisplay
  rows := updateContractReview
  wp_initial cmd s hz := by
    refine wp_mono (fun _ t ht => ?_) (fun _ _ h => h) (wp_updateContractInitial hz)
    obtain ⟨ctx, hg, hopened⟩ := ht
    rw [hg]
    exact hopened
  wp_display _ _ _ := wp_uiUpdateContractDisplay
  rows_still s t ha hg := by unfold updateContractReview; rw [ha, hg]
  dispatch cmd isInitialCall hins := by
    unfold dispatchInstruction
    rw [hins]
    rfl

namespace ContractFlow
variable (F : ContractFlow)

/-- The stream as the instruction reads it. -/
def streamAt (w : World) : ContractStream := F.streamOf (w.global.view F.Ctx)

/-- The state agrees with a phase. -/
structure Stands (phase : ContractPhase) (w : World) : Prop where
  streams : Streams (F.streamAt w) phase
  hashed : phase ≠ .unopened → ∃ base, base.length = F.size ∧ w.txState.hash = base ++ phase.bytes

/-- The review of a complete call is on screen. -/
structure Reviewing (name params : Bytes) (w : World) : Prop where
  stands : F.Stands (.complete name params) w
  digest : (F.streamAt w).paramsHashDisplay.text = hexUpper (Platform.sha256 (name ++ params)).bytes
  actions : w.screen.actions = signFlowShared
  rows : w.screen.rows = F.rows w

theorem rows_reviewed (s : World) :
    (s.reviewed (F.rows s)).screen.rows = F.rows (s.reviewed (F.rows s)) :=
  (F.rows_still s (s.reviewed (F.rows s)) rfl rfl).symm

variable {F} {phase : ContractPhase} {isInitialCall : Bool}

/-- A packet behind the first one. -/
theorem wp_packet {Q : Unit → World → Prop} {E : Exception → World → Prop} (h : F.Stands phase s)
    (hv : phase.Valid) (hins : cmd.ins = F.ins) (hc : cmd.data ≠ [])
    (hnext : ¬ (cmd.p1 = Contract.p1Initial ∧ isInitialCall))
    (hgo : ∀ next g, phase.feed cmd.p1 cmd.data = some next → next.isComplete = false →
      F.Stands next (s.streamedOn cmd.data g) → Q () (s.streamedOn cmd.data g))
    (hreview : ∀ name params t, phase.feed cmd.p1 cmd.data = some (.complete name params) →
      t.latch = s.latch → t.replyPending = s.replyPending → F.Reviewing name params t → Q () t)
    (hno : phase.feed cmd.p1 cmd.data = none → ∀ g, Q () (s.declined g errorInvalidTransaction))
    (hthrow : phase.feed cmd.p1 cmd.data = none → ∀ sw, sw ≠ swoSuccess → E (.statusWord sw) s) :
    wp (dispatchInstruction cmd isInitialCall) Q E s := by
  have opened {next : ContractPhase} (hfeed : phase.feed cmd.p1 cmd.data = some next) :
      ∃ base, base.length = F.size ∧ s.txState.hash ++ cmd.data = base ++ next.bytes := by
    obtain ⟨base, hbase, hhash⟩ := h.hashed (by rintro rfl; cases hfeed)
    exact ⟨base, hbase, by rw [hhash, ContractPhase.bytes_feed hfeed, List.append_assoc]⟩
  have stands {next : ContractPhase} {stream : ContractStream} {g : InstructionContext} {t : World}
      (hg : F.streamOf (g.view F.Ctx) = stream) (hs : Streams stream next) (ht : t.global = g)
      (hhash : t.txState.hash = s.txState.hash ++ cmd.data)
      (hfeed : phase.feed cmd.p1 cmd.data = some next) : F.Stands next t :=
    ⟨by rw [streamAt, ht, hg]; exact hs, fun _ => hhash ▸ opened hfeed⟩
  rw [F.dispatch cmd isInitialCall hins]
  unfold withData
  refine wp_if (fun hlc => absurd (List.length_eq_zero_iff.mp hlc) hc) fun _ => ?_
  refine wp_if (fun hp => absurd hp hnext) fun _ => ?_
  rw [wp_bind, wp_getCtx]
  have hview (ctx : F.Ctx) (stream : ContractStream) :
      F.streamOf ((Member.inject (F.withStream ctx stream) : InstructionContext).view F.Ctx) =
        stream := by
    rw [InstructionContext.view_inject, F.streamOf_withStream]
  refine wp_if (fun hp => ?_) fun hp => wp_if (fun hp' => ?_) fun hp' => ?_
  · rw [hp] at hgo hno hthrow stands
    refine wp_contractNamePacket
      (fun _ _ _ => rfl) h.streams hv hc (fun next stream hfeed hs => ?_) (fun hnone stream => ?_)
      hthrow
    · refine hgo next _ hfeed ?_ (stands (hview _ stream) hs rfl rfl hfeed)
      cases phase with
      | unopened | complete => cases hfeed
      | inParams name got =>
        rw [ContractPhase.feed_inParams_none fun h => absurd h (by decide)] at hfeed
        cases hfeed
      | inName got =>
        simp only [ContractPhase.feed] at hfeed
        split_ifs at hfeed <;> exact Option.some.inj hfeed ▸ rfl
    · exact hno hnone _
  · rw [hp'] at hgo hreview hthrow stands
    refine wp_contractParamsPacket
      (fun _ _ _ => rfl) h.streams hv hc (fun next stream hfeed hmore hs => ?_)
      (fun name params stream hfeed hs hdigest => ?_) hthrow
    · exact hgo next _ hfeed hmore (stands (hview _ stream) hs rfl rfl hfeed)
    · rw [F.wp_display]
      refine hreview name params _ hfeed rfl rfl ⟨stands (hview _ stream) hs rfl rfl hfeed, ?_, rfl,
        F.rows_reviewed _⟩
      rw [streamAt, World.reviewed, hview]
      exact hdigest
  · refine hthrow ?_ _ (by decide)
    cases phase with
    | unopened | complete => rfl
    | inName got => exact ContractPhase.feed_inName_none fun h => absurd h hp
    | inParams name got => exact ContractPhase.feed_inParams_none fun h => absurd h hp'

/-! ## The rules of the flow -/

variable (F)

/-- Between packets: the packets of the flow lead to a phase that is not
    complete. -/
def Between (ps : List Command) (w : World) : Prop :=
  ∃ phase, ContractPhase.reached ps = some phase ∧ phase.isComplete = false ∧ F.Stands phase w

/-- Under review: the packets of the flow lead to a complete call. -/
def UnderReview (ps : List Command) (w : World) : Prop :=
  ∃ name params, ContractPhase.reached ps = some (.complete name params) ∧
    F.Reviewing name params w

variable {F}

theorem stands_fresh (hz : s.global = .zeroed) : F.Stands .unopened s := by
  refine ⟨?_, fun h => absurd rfl h⟩
  rw [streamAt, hz, InstructionContext.view_zeroed, F.streamOf_default]
  exact streams_unopened

theorem packet_flowing {ps : List Command} (h : F.Stands phase s) (hv : phase.Valid)
    (hins : cmd.ins = F.ins) (hc : cmd.data ≠ []) (hp : s.replyPending = true)
    (hnext : ¬ (cmd.p1 = Contract.p1Initial ∧ isInitialCall))
    (hreached : ∀ next, phase.feed cmd.p1 cmd.data = some next →
      ContractPhase.reached ps = some next) :
    wp (dispatchInstruction cmd isInitialCall)
      (fun _ t => Flowing F.ins (F.Between ps) (F.UnderReview ps) t) (fun _ _ => True) s := by
  refine wp_packet h hv hins hc hnext (fun next g hfeed hmore hs => ?_)
    (fun name params t hfeed _ htp ht => ?_) (fun _ _ => .of_free rfl) fun _ _ _ => trivial
  · exact .of_between rfl ⟨next, hreached next hfeed, hmore, hs⟩
  · exact .of_review (htp.trans hp) ⟨name, params, hreached _ hfeed, ht⟩

theorem rules : FlowRules F.ins F.Between F.UnderReview where
  still ps s t h _ _ hI := by
    obtain ⟨phase, hreached, hmore, hs⟩ := hI
    refine ⟨phase, hreached, hmore, ?_, ?_⟩
    · rw [h]
      exact hs.streams
    · rw [h]
      exact hs.hashed
  first cmd s hins hl hp hz _ _ _ := by
    by_cases hc : cmd.data = []
    · rw [F.dispatch cmd true hins]
      refine wp_withData (fun _ => .of_between rfl ?_) fun h => absurd hc h
      refine ⟨.unopened, ?_, rfl, ?_, fun h => absurd rfl h⟩
      · rw [ContractPhase.reached, if_pos hc]
        rfl
      · exact (stands_fresh hz).streams
    · by_cases hfirst : cmd.p1 = Contract.p1Initial
      · rw [F.dispatch cmd true hins]
        refine wp_withData (fun h => absurd h hc) fun _ => wp_if (fun _ => ?_)
          fun h => absurd ⟨hfirst, rfl⟩ h
        refine wp_mono (fun _ t ht => .of_between ht.reply ⟨.inName [], ?_, rfl, ht.stream,
          fun _ => ⟨t.txState.hash, ht.hashed, (List.append_nil _).symm⟩⟩) (fun _ _ h => h)
          (F.wp_initial cmd s hz)
        rw [ContractPhase.reached, if_neg hc]
        rfl
      · refine packet_flowing (stands_fresh hz) trivial hins hc hp (fun h => hfirst h.1) ?_
        rintro next ⟨⟩
  next ps cmd s hins hl hp hI := by
    obtain ⟨phase, hreached, hmore, hs⟩ := hI
    have htake : ContractPhase.reached (ps ++ [cmd]) = phase.take cmd :=
      ContractPhase.reached_append hreached
    by_cases hc : cmd.data = []
    · rw [ContractPhase.take, if_pos hc] at htake
      rw [F.dispatch cmd false hins]
      exact wp_withData (fun _ => .of_between rfl ⟨phase, htake, hmore, hs.streams, hs.hashed⟩)
        fun h => absurd hc h
    · rw [ContractPhase.take, if_neg hc] at htake
      exact packet_flowing hs (ContractPhase.valid_reached hreached) hins hc hp
        (fun h => absurd h.2 Bool.false_ne_true) fun next hfeed => htake.trans hfeed
  answer ps c s hc hl hp hr := by
    obtain ⟨name, params, -, hr⟩ := hr
    exact wp_mono (fun _ _ ht => .of_free ht) (fun _ _ hE => hE)
      (wp_signFlowShared (hr.actions ▸ hc))

/-! ## What a call under way has been told -/

theorem refuses {w : World} (h : F.Stands phase w) (hv : phase.Valid) (hl : w.latch = some F.ins)
    (hins : cmd.ins = F.ins) (hno : cmd.data = [] ∨ phase.feed cmd.p1 cmd.data = none) :
    Refuses w cmd := by
  refine refuses_packet (hins ▸ hl) (F.dispatch cmd false hins) fun hc => ?_
  have hnone := hno.resolve_left hc
  have hs : F.Stands phase (w.delivered.arrived cmd.ins) := ⟨h.streams, h.hashed⟩
  refine wp_packet hs hv hins hc (fun h => absurd h.2 Bool.false_ne_true)
    (fun next g hfeed => ?_) (fun name params t hfeed => ?_)
    (fun _ g => ⟨g, _, by decide, rfl⟩) fun _ sw hsw => ⟨rfl, sw, hsw, rfl⟩
  · cases hnone.symm.trans hfeed
  · cases hnone.symm.trans hfeed

/-- A packet that its phase takes; the one that completes the call leads to the
    review. -/
theorem takes {w : World} {next : ContractPhase} (h : F.Stands phase w) (hv : phase.Valid)
    (hl : w.latch = some F.ins) (hp : w.replyPending = false) (hins : cmd.ins = F.ins)
    (hc : cmd.data ≠ []) (hfeed : phase.feed cmd.p1 cmd.data = some next) :
    ∃ w', step w (.apdu cmd) = some w' ∧ w'.latch = some F.ins ∧
      (w'.replyPending = true ↔ next.isComplete = true) := by
  have hs : F.Stands phase (w.delivered.arrived cmd.ins) := ⟨h.streams, h.hashed⟩
  refine step_next (hins ▸ hl) hp (wp_packet hs hv hins hc
    (fun h => absurd h.2 Bool.false_ne_true) (fun next' g hfeed' hmore _ => ⟨hl, ?_⟩)
    (fun name params t hfeed' htl htp _ => ⟨htl.trans hl, ?_⟩) (fun hnone => ?_) fun hnone => ?_)
  · obtain rfl := Option.some.inj (hfeed.symm.trans hfeed')
    rw [hmore]
    exact ⟨fun h => absurd h Bool.false_ne_true, fun h => absurd h Bool.false_ne_true⟩
  · obtain rfl := Option.some.inj (hfeed.symm.trans hfeed')
    exact ⟨fun _ => rfl, fun _ => htp⟩
  · cases hnone.symm.trans hfeed
  · cases hnone.symm.trans hfeed

end ContractFlow

end Flows

/-! ## Every run -/

/-- The two contract instructions. -/
def contractInstructions : List UInt8 := [insInitContract, insUpdateContract]

/-- The bytes of a contract call in front of its name. -/
def contractSize (ins : UInt8) : ℕ :=
  if ins = insInitContract then initContractSize else updateContractSize

section Runs
variable [Platform] {ins : UInt8} {w : World}

/-- The stream that a contract instruction keeps. -/
def contractStream (ins : UInt8) (w : World) : ContractStream :=
  if ins = insInitContract then (w.global.view InitContract).stream
  else (w.global.view UpdateContract).stream

/-- The row of the review that shows the name. -/
def contractNameItem (ins : UInt8) : String :=
  if ins = insInitContract then "Contract name" else "Receive name"

/-- What a call under way has come to, whose packets behind the first one are
    `rest`. -/
structure CallStands (ins : UInt8) (rest : List Command) (phase : ContractPhase) (w : World) :
    Prop where
  /-- What is kept for display is within the declared name and the buffer. -/
  kept : (contractStream ins w).nameDisplayUsed ≤ phase.nameLength ∧
    (contractStream ins w).nameDisplayUsed < 256
  /-- The hash has been fed the packets, however they were split. -/
  hashed : phase ≠ .unopened → ∃ base, base.length = contractSize ins ∧
    w.txState.hash = base ++ rest.flatMap Command.data
  /-- A review is owed its answer exactly when nothing is left to be read. -/
  review : w.replyPending = true ↔ phase.isComplete = true
  /-- A complete call is its name and its parameters, each behind its length,
      and the name is on screen. -/
  complete : ∀ name params, phase = .complete name params →
    rest.flatMap Command.data =
      toBe 2 name.length ++ name ++ (toBe 2 params.length ++ params) ∧
    (contractStream ins w).nameDisplay.text = shownName name ∧
    row (contractNameItem ins) (shownName name) ∈ w.screen.rows ∧
    w.screen.actions = signFlowShared

/-- How a call under way stands after its packets, and what becomes of the next
    one: it is refused unless it continues the phase, and the review starts with
    the packet that completes the call. -/
def ContractProgress (ins : UInt8) (packets : List Command) (w : World) : Prop :=
  ∃ first rest phase, packets = first :: rest ∧ ContractPhase.reached packets = some phase ∧
    CallStands ins rest phase w ∧
    (∀ cmd, cmd.ins = ins → cmd.data = [] ∨ phase.feed cmd.p1 cmd.data = none →
      Refuses w cmd) ∧
    ∀ cmd next, cmd.ins = ins → cmd.data ≠ [] → phase.feed cmd.p1 cmd.data = some next →
      ∃ w', step w (.apdu cmd) = some w' ∧ w'.latch = some ins ∧
        (w'.replyPending = true ↔ next.isComplete = true)

/-- One of the two instructions, at a point where its flow is open. -/
theorem ContractFlow.progress (F : ContractFlow) (hsize : contractSize F.ins = F.size)
    (hstream : ∀ w, contractStream F.ins w = F.streamAt w)
    (hname : ∀ w : World, row (contractNameItem F.ins) (F.streamAt w).nameDisplay.text ∈ F.rows w)
    {packets : List Command}
    (h : Flowing F.ins (F.Between packets) (F.UnderReview packets) w) (hl : w.latch = some F.ins) :
    ContractProgress F.ins packets w := by
  obtain ⟨phase, hreached, hstands, hreview, hcomplete⟩ : ∃ phase,
      ContractPhase.reached packets = some phase ∧ F.Stands phase w ∧
      (w.replyPending = true ↔ phase.isComplete = true) ∧
      ∀ name params, phase = .complete name params → F.Reviewing name params w := by
    rcases Bool.eq_false_or_eq_true w.replyPending with hp | hp
    · obtain ⟨name, params, hreached, hr⟩ := h.review hl hp
      refine ⟨_, hreached, hr.stands, ⟨fun _ => rfl, fun _ => hp⟩, fun name' params' heq => ?_⟩
      obtain ⟨rfl, rfl⟩ := ContractPhase.complete.inj heq
      exact hr
    · obtain ⟨phase, hreached, hmore, hs⟩ := h.between hl hp
      refine ⟨phase, hreached, hs, ?_, fun name params heq => ?_⟩
      · rw [hp, hmore]
      · rw [heq] at hmore
        cases hmore
  have hvalid := ContractPhase.valid_reached hreached
  cases packets with
  | nil => cases hreached
  | cons first rest =>
    have hbytes := ContractPhase.bytes_reached hreached
    refine ⟨first, rest, phase, rfl, hreached, ⟨?_, fun hopened => ?_, hreview,
      fun name params heq => ?_⟩, fun cmd hins hno => F.refuses hstands hvalid hl hins hno,
      fun cmd next hins hc hfeed => F.takes hstands hvalid hl ?_ hins hc hfeed⟩
    · rw [hstream, hstands.streams.used]
      exact hvalid.used_le
    · obtain ⟨base, hbase, hhash⟩ := hstands.hashed hopened
      exact ⟨base, hbase.trans hsize.symm, hbytes ▸ hhash⟩
    · have hr := hcomplete name params heq
      have hshown : (F.streamAt w).nameDisplay.text = shownName name := hr.stands.streams.shown
      refine ⟨by rw [← hbytes, heq]; rfl, by rw [hstream, hshown], ?_, hr.actions⟩
      rw [hr.rows, ← hshown]
      exact hname w
    · rw [← Bool.not_eq_true]
      intro hp
      cases phase with
      | complete => cases hfeed
      | _ => cases hreview.mp hp

/-- In every run in which reviews are answered once, a contract call under way
    stands where its packets lead to, and takes and refuses packets
    accordingly. -/
theorem contract_streaming (hins : ins ∈ contractInstructions) {inputs : List Input}
    (hgate : Along Concordium.step Answers World.start inputs)
    (hrun : runInputs World.start inputs = some w) (hlatch : w.latch = some ins) :
    ContractProgress ins (openPackets inputs) w := by
  rcases List.mem_pair.mp hins with rfl | rfl
  · refine initContractFlow.progress rfl (fun _ => rfl) (fun w => ?_)
      (initContractFlow.rules.run hgate hrun) hlatch
    simp only [initContractFlow, initContractReview, accountReview, initContractRows]
    cases (Platform.backend : Backend) <;> simp [contractNameItem, ContractFlow.streamAt]
  · refine updateContractFlow.progress rfl (fun _ => rfl) (fun w => ?_)
      (updateContractFlow.rules.run hgate hrun) hlatch
    simp only [updateContractFlow, updateContractReview, accountReview, updateContractRows]
    cases (Platform.backend : Backend) <;>
      simp [contractNameItem, ContractFlow.streamAt, insUpdateContract, insInitContract]

end Runs

/-- The first packet of an INIT_CONTRACT flow, with the given nonce. -/
def initContractPacket (nonce : ℕ) : Command where
  ins := insInitContract
  p1 := 0
  p2 := 0
  data := 6 :: [44, 919, 0, 0, 0, 0].flatMap (toBe 4) ++
    (List.replicate 32 7 ++ toBe 8 nonce ++ toBe 8 500 ++ toBe 4 4 ++ toBe 8 9) ++
    kindInitContract :: toBe 8 1000000 ++ List.replicate 32 3
  lc_le := by simp

/-- A packet of the name or of the parameters. -/
def initContractChunk (p1 : UInt8) (data : Bytes) : Command :=
  ⟨insInitContract, p1, 0, data.take 255, take_data_le data⟩

/-- A call with a short name. -/
def shortNameInputs (nonce : ℕ) : List Input :=
  [.apdu (initContractPacket nonce),
    .apdu (initContractChunk 1 (toBe 2 6 ++ ascii "init_a")),
    .apdu (initContractChunk 2 (toBe 2 1 ++ [5]))]

/-- A call of a short receive name. -/
def receiveNameInputs : List Input :=
  [.apdu {
      ins := insUpdateContract
      p1 := 0
      p2 := 0
      data := 6 :: [44, 919, 0, 0, 0, 0].flatMap (toBe 4) ++
        (List.replicate 32 7 ++ toBe 8 1 ++ toBe 8 500 ++ toBe 4 4 ++ toBe 8 9) ++
        kindUpdateContract :: toBe 8 1000000 ++ toBe 8 4 ++ toBe 8 0
      lc_le := by simp },
    .apdu ⟨insUpdateContract, 1, 0, toBe 2 3 ++ ascii "a.", by decide⟩,
    .apdu ⟨insUpdateContract, 1, 0, ascii "b", by decide⟩,
    .apdu ⟨insUpdateContract, 2, 0, toBe 2 1 ++ [5], by decide⟩]

/-- A call of either kind with a short name, up to its review. -/
theorem contract_streaming_short :
    letI : Platform := sdkDevice .nbgl
    (∃ w, runInputs World.start (shortNameInputs 1) = some w ∧ w.replyPending = true ∧
      ContractProgress insInitContract (openPackets (shortNameInputs 1)) w) ∧
    ∃ w, runInputs World.start receiveNameInputs = some w ∧ w.replyPending = true ∧
      ContractProgress insUpdateContract (openPackets receiveNameInputs) w := by
  let : Platform := sdkDevice .nbgl
  have called {ins : UInt8} {inputs : List Input} (hins : ins ∈ contractInstructions)
      (hgate : Along Concordium.step Answers World.start inputs)
      (hrun : (runInputs World.start inputs).any (fun w =>
        decide (w.latch = some ins ∧ w.replyPending = true)) = true) :
      ∃ w, runInputs World.start inputs = some w ∧ w.replyPending = true ∧
        ContractProgress ins (openPackets inputs) w := by
    obtain ⟨w, hw, hrun⟩ := (Option.any_eq_true _ _).mp hrun
    obtain ⟨hlatch, hp⟩ := of_decide_eq_true hrun
    exact ⟨w, hw, hp, contract_streaming hins hgate hw hlatch⟩
  constructor
  · exact called (by decide) (by decide +kernel) (by decide +kernel)
  · exact called (by decide) (by decide +kernel) (by decide +kernel)

end Concordium
