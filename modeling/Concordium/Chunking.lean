/-
  CBOR blobs that arrive in pieces.

  Three flows hash a blob packet by packet and parse it when it is complete.
  `BlobFlow.read` is the state that depends on the bytes read so far only, not
  on where the packets ended.
-/
import Concordium.CborBlob
import Concordium.Header
import Concordium.Unseen

namespace Concordium

open Buffer Cbor Runs Union Wp

/-! ## Splits -/

/-- The blob is split into packets: none is empty, each fits an APDU. -/
structure Split (blob : Bytes) (ps : List Bytes) : Prop where
  whole : ps.flatten = blob
  packets : ∀ p ∈ ps, p ≠ [] ∧ p.length ≤ 255

/-- The flows that carry a blob. -/
inductive BlobFlow where
  | transferWithMemo | transferWithScheduleAndMemo | registerData
deriving DecidableEq, Repr

namespace BlobFlow

/-- The instruction of a flow. -/
def ins : BlobFlow → UInt8
  | .transferWithMemo => insSignTransferWithMemo
  | .transferWithScheduleAndMemo => insSignTransferWithScheduleAndMemo
  | .registerData => insRegisterData

/-- The `p1` of a packet of the blob. -/
def p1 : BlobFlow → UInt8
  | .transferWithMemo => SignTransferContext.p1Memo
  | .transferWithScheduleAndMemo => SignTransferWithScheduleContext.p1Memo
  | .registerData => SignRegisterData.p1Data

/-- A packet of the blob. -/
def packet (flow : BlobFlow) (p : Bytes) : Command :=
  ⟨flow.ins, flow.p1, p2SignTxDefault, p.take 255, take_data_le p⟩

section
variable [Platform]

/-- The flow has been opened and announced `n` bytes, none of which has arrived. -/
structure Awaits (flow : BlobFlow) (w : World) (n : ℕ) : Prop where
  latch : w.latch = some flow.ins
  replyPending : w.replyPending = false
  context : match flow with
    | .transferWithMemo =>
      let ctx := w.global.view (WithDataBlob SignTransferContext)
      ctx.tx.state = .memoInitial ∧ ctx.cborContext.cborLength = n
    | .transferWithScheduleAndMemo =>
      let ctx := w.global.view (WithDataBlob SignTransferWithScheduleContext)
      ctx.tx.state = .memoStart ∧ ctx.cborContext.cborLength = n
    | .registerData =>
      let ctx := w.global.view (WithDataBlob SignRegisterData)
      ctx.tx.state = .payloadStart ∧ ctx.tx.dataLength = n ∧ ctx.cborContext.cborLength = n

/-- The reader's context. -/
def cborContext (flow : BlobFlow) (w : World) : CborContext :=
  match flow with
  | .transferWithMemo => (w.global.view (WithDataBlob SignTransferContext)).cborContext
  | .transferWithScheduleAndMemo =>
    (w.global.view (WithDataBlob SignTransferWithScheduleContext)).cborContext
  | .registerData => (w.global.view (WithDataBlob SignRegisterData)).cborContext

/-- The reader's context once `got` has been read of `n` bytes. -/
def cborAfter (ctx : CborContext) (n : ℕ) (got : Bytes) : CborContext :=
  (cborRead { ctx with cborBuf := got, cborLength := n - got.length }).2

/-- The context once `got` has been read of `n` bytes. -/
def contextAfter (flow : BlobFlow) (w : World) (n : ℕ) (got : Bytes) : InstructionContext :=
  match flow with
  | .transferWithMemo =>
    let ctx := w.global.view (WithDataBlob SignTransferContext)
    Member.inject (⟨{ ctx.tx with state := if got.length = n then .amount else .memo },
      cborAfter ctx.cborContext n got⟩ : WithDataBlob SignTransferContext)
  | .transferWithScheduleAndMemo =>
    let ctx := w.global.view (WithDataBlob SignTransferWithScheduleContext)
    Member.inject (⟨{ ctx.tx with state := if got.length = n then .transferPairs else .memo },
      cborAfter ctx.cborContext n got⟩ : WithDataBlob SignTransferWithScheduleContext)
  | .registerData =>
    let ctx := w.global.view (WithDataBlob SignRegisterData)
    Member.inject (⟨⟨n - got.length, .payload⟩, cborAfter ctx.cborContext n got⟩ :
      WithDataBlob SignRegisterData)

/-- What is hashed behind a complete blob: a schedule with memo goes on with the
    number of releases. -/
def hashedBehind (flow : BlobFlow) (w : World) : Bytes :=
  match flow with
  | .transferWithScheduleAndMemo =>
    [UInt8.ofNat (w.global.view
      (WithDataBlob SignTransferWithScheduleContext)).tx.remainingNumberOfScheduledAmounts]
  | _ => []

/-- The state once `got` has been read of the `n` bytes that the flow awaited in
    `w`, before the packet is answered. -/
def read (flow : BlobFlow) (w : World) (n : ℕ) (got : Bytes) : World :=
  { w with
    replyPending := true
    global := flow.contextAfter w n got
    txState := { w.txState with
      hash := w.txState.hash ++ got ++ if got.length = n then flow.hashedBehind w else [] } }

/-- How a packet is answered: the last one of a memo that is followed by an
    amount like the others, and else by a review. -/
def ending (flow : BlobFlow) (complete : Bool) : App Unit :=
  match flow, complete with
  | .transferWithScheduleAndMemo, true => startInitialScheduledTransferDisplay true
  | .registerData, true => uiRegisterDataPayloadDisplay
  | _, _ => sendSuccessNoIdle

/-- The state in which a packet finds its handler, `got` having been read. -/
def found (flow : BlobFlow) (w : World) (n : ℕ) (got : Bytes) : World :=
  { w with
    replyPending := true
    global := if got = [] then w.global else flow.contextAfter w n got
    txState := { w.txState with hash := w.txState.hash ++ got } }

/-- The splits a flow takes: the data of REGISTER_DATA in one packet or two. -/
def Takes (flow : BlobFlow) (ps : List Bytes) : Prop :=
  flow = .registerData → ps.length ≤ 2

end

end BlobFlow

/-! ## One packet -/

section Packets
variable [Platform] {w s : World} {n : ℕ} {got p : Bytes}
  {flow : BlobFlow} {ctx : CborContext} {Q : Unit → World → Prop} {E : Exception → World → Prop}

/-- A packet that goes on with a blob of `n` bytes, and what is then in the
    buffer is accepted. -/
structure Continues (flow : BlobFlow) (n : ℕ) (ctx : CborContext) (got p : Bytes) : Prop where
  nonempty : p ≠ []
  short : p.length ≤ 255
  fits : got.length + p.length ≤ n
  bounded : n ≤ maxCborBlobSize
  accepted : (cborRead { ctx with
    cborBuf := got ++ p, cborLength := n - (got ++ p).length }).1 = swoSuccess
  taken : flow = .registerData → got = [] ∨ got.length + p.length = n

theorem cborRead_incomplete {ctx : CborContext} (h : ctx.cborLength ≠ 0) :
    cborRead ctx = (swoSuccess, ctx) := if_neg h

theorem cborAfter_incomplete {ctx : CborContext} (h : got.length < n) :
    BlobFlow.cborAfter ctx n got = { ctx with cborBuf := got, cborLength := n - got.length } := by
  rw [BlobFlow.cborAfter, cborRead_incomplete (by show n - got.length ≠ 0; omega)]

theorem cborRead_cborLength (hc : DecodesItems Platform.cbor) (ctx : CborContext) :
    (cborRead ctx).2.cborLength = ctx.cborLength := by
  unfold cborRead
  split_ifs with h
  · exact (blobParsed_parsedCbor hc ctx).2.1
  · rfl

/-- The reader of a packet leaves the context with `p` behind what it had. -/
structure Reads (readCbor : CborContext → Bytes → App (UInt16 × CborContext)) (ctx : CborContext)
    (n : ℕ) (got p : Bytes) : Prop where
  reads : ∀ (s : World) (Q : UInt16 × CborContext → World → Prop) (E : Exception → World → Prop),
    Q (cborRead { ctx with cborBuf := got ++ p, cborLength := n - (got ++ p).length }) s →
    wp (readCbor ctx p) Q E s

theorem reads_initial (hc : DecodesItems Platform.cbor) {flow : BlobFlow} {ctx : CborContext}
    (hctx : ctx.cborLength = n) (hp : Continues flow n ctx [] p) :
    Reads readCborInitial ctx n [] p := by
  have hpos : 0 < p.length := List.length_pos_iff.mpr hp.nonempty
  have hfits : 0 + p.length ≤ n := hp.fits
  refine ⟨fun s Q E h => wp_readCborInitial hc (fun hbad => ?_) fun _ _ => ?_⟩
  · omega
  · rw [List.nil_append] at h
    rw [hctx]
    exact h

theorem reads_content (hc : DecodesItems Platform.cbor) {flow : BlobFlow} {ctx : CborContext}
    (hp : Continues flow n ctx got p) :
    Reads readCborContent { ctx with cborBuf := got, cborLength := n - got.length } n got p := by
  have hfits := hp.fits
  have hbounded := hp.bounded
  refine ⟨fun s Q E h => wp_readCborContent hc (fun hbad => ?_) fun _ _ => ?_⟩
  · exfalso
    change n - got.length < p.length ∨ maxCborBlobSize < got.length + p.length at hbad
    omega
  · rw [List.length_append] at h
    show Q (cborRead { ctx with
      cborBuf := got ++ p, cborLength := n - got.length - p.length }) s
    rw [show n - got.length - p.length = n - (got.length + p.length) by omega]
    exact h

/-- A memo packet of a transfer, whichever reader takes it. -/
theorem wp_transferMemoPacket (hc : DecodesItems Platform.cbor) {cmd : Command}
    {readCbor : CborContext → Bytes → App (UInt16 × CborContext)} {ctx : CborContext}
    {tx : SignTransferContext} (hp2 : cmd.p2 = p2SignTxDefault)
    (hview : s.global.view (WithDataBlob SignTransferContext) = ⟨tx, ctx⟩)
    (hreads : Reads readCbor ctx n got cmd.data) (hfits : got.length + cmd.data.length ≤ n)
    (haccepted : (cborRead { ctx with
      cborBuf := got ++ cmd.data, cborLength := n - (got ++ cmd.data).length }).1 = swoSuccess)
    (h : ∀ log, wp sendSuccessNoIdle Q E { s with
      global := Member.inject (⟨{ tx with
        state := if (got ++ cmd.data).length = n then .amount else .memo },
        (cborRead { ctx with
          cborBuf := got ++ cmd.data, cborLength := n - (got ++ cmd.data).length }).2⟩ :
        WithDataBlob SignTransferContext)
      txState := { s.txState with hash := s.txState.hash ++ cmd.data }
      log := log }) :
    wp (transferMemoPacket cmd readCbor) Q E s := by
  have hlength := cborRead_cborLength hc { ctx with
    cborBuf := got ++ cmd.data, cborLength := n - (got ++ cmd.data).length }
  unfold transferMemoPacket
  simp only [wp_bind, wp_throwIf, wp_updateHash, wp_getCtx, hview]
  refine ⟨fun hno => absurd hp2 hno, fun _ => ?_⟩
  refine hreads.reads _ _ _ ?_
  rw [wp_bind, wp_setCtx]
  refine wp_if (fun hno => absurd haccepted hno) fun _ => wp_if (fun hdone => ?_) fun hmore => ?_
  · have hn : (got ++ cmd.data).length = n := by
      rw [hlength] at hdone
      rw [List.length_append] at hdone ⊢
      change n - _ = 0 at hdone
      omega
    have hQ := h (s.log ++ [.hashUpdate cmd.data])
    rw [if_pos hn] at hQ
    unfold finishTransferMemo
    simp only [wp_bind, wp_modifyCtx, InstructionContext.view_inject]
    exact hQ
  · have hn : (got ++ cmd.data).length ≠ n := by
      rw [hlength] at hmore
      change ¬ n - _ = 0 at hmore
      omega
    have hQ := h (s.log ++ [.hashUpdate cmd.data])
    rw [if_neg hn] at hQ
    rw [wp_bind, wp_setCtx]
    exact hQ

theorem got_lt (hp : Continues flow n ctx got p) : got.length < n := by
  have hpos : 0 < p.length := List.length_pos_iff.mpr hp.nonempty
  have hfits := hp.fits
  omega

theorem transferWithMemo_reads (hc : DecodesItems Platform.cbor)
    (hw : BlobFlow.Awaits .transferWithMemo w n)
    (hp : Continues .transferWithMemo n
      (w.global.view (WithDataBlob SignTransferContext)).cborContext got p)
    (h : ∀ log, wp (BlobFlow.ending .transferWithMemo ((got ++ p).length = n)) Q E
      { BlobFlow.read .transferWithMemo w n (got ++ p) with log := log }) (log : List Event) :
    wp (handleSignTransferWithMemo (BlobFlow.packet .transferWithMemo p) false) Q E
      { BlobFlow.found .transferWithMemo w n got with log := log } := by
  have hdata : (BlobFlow.packet .transferWithMemo p).data = p := List.take_of_length_le hp.short
  have hp1 : (BlobFlow.packet .transferWithMemo p).p1 = SignTransferContext.p1Memo := rfl
  have h1 : SignTransferContext.p1Memo ≠ SignTransferContext.p1InitialWithMemo := by decide
  obtain ⟨hstate, hlength⟩ := hw.context
  have hending (b : Bool) : BlobFlow.ending .transferWithMemo b = sendSuccessNoIdle := by
    cases b <;> rfl
  rw [hending] at h
  unfold handleSignTransferWithMemo
  simp only [Bool.false_eq_true, if_false, wp_bind, wp_getCtx, hp1]
  refine wp_if (fun hno => absurd hno.1 h1) fun _ => ?_
  by_cases hgot : got = []
  · subst hgot
    have hview : (BlobFlow.found .transferWithMemo w n []).global.view
        (WithDataBlob SignTransferContext) =
      ⟨(w.global.view (WithDataBlob SignTransferContext)).tx,
        (w.global.view (WithDataBlob SignTransferContext)).cborContext⟩ := rfl
    rw [hview]
    refine wp_if (fun _ => ?_) fun hno => absurd ⟨trivial, hstate⟩ hno
    have hreads := reads_initial hc hlength hp
    have hfits := hp.fits
    have haccepted := hp.accepted
    rw [← hdata] at hreads hfits haccepted
    refine wp_transferMemoPacket hc rfl hview hreads hfits haccepted fun log => ?_
    have := h log
    simpa only [hdata, BlobFlow.read, BlobFlow.found, BlobFlow.contextAfter, BlobFlow.cborAfter,
      BlobFlow.hashedBehind, List.append_nil, ite_self, List.nil_append] using this
  · have hlt := got_lt hp
    have hview : (BlobFlow.found .transferWithMemo w n got).global.view
        (WithDataBlob SignTransferContext) =
      ⟨{ (w.global.view (WithDataBlob SignTransferContext)).tx with state := .memo },
        { (w.global.view (WithDataBlob SignTransferContext)).cborContext with
          cborBuf := got, cborLength := n - got.length }⟩ := by
      rw [BlobFlow.found, if_neg hgot, BlobFlow.contextAfter]
      simp only [InstructionContext.view_inject, cborAfter_incomplete hlt, if_neg hlt.ne]
    rw [hview]
    refine wp_if (fun hno => by cases hno.2) fun _ => ?_
    refine wp_if (fun _ => ?_) fun hno => absurd ⟨trivial, rfl⟩ hno
    have hreads := reads_content hc hp
    have hfits := hp.fits
    have haccepted := hp.accepted
    rw [← hdata] at hreads hfits haccepted
    refine wp_transferMemoPacket hc rfl hview hreads hfits haccepted fun log => ?_
    have := h log
    simpa only [hdata, BlobFlow.read, BlobFlow.found, BlobFlow.contextAfter, BlobFlow.cborAfter,
      BlobFlow.hashedBehind, List.append_nil, ite_self, List.append_assoc] using this

/-- A memo packet of a scheduled transfer, whichever reader takes it. -/
theorem wp_scheduleMemoPacket (hc : DecodesItems Platform.cbor) {cmd : Command}
    {readCbor : CborContext → Bytes → App (UInt16 × CborContext)} {ctx : CborContext}
    {tx : SignTransferWithScheduleContext} (hp2 : cmd.p2 = p2SignTxDefault)
    (hview : s.global.view (WithDataBlob SignTransferWithScheduleContext) = ⟨tx, ctx⟩)
    (hreads : Reads readCbor ctx n got cmd.data) (hfits : got.length + cmd.data.length ≤ n)
    (haccepted : (cborRead { ctx with
      cborBuf := got ++ cmd.data, cborLength := n - (got ++ cmd.data).length }).1 = swoSuccess)
    (h : ∀ log, wp (BlobFlow.ending .transferWithScheduleAndMemo ((got ++ cmd.data).length = n)) Q E
      { s with
        global := Member.inject (⟨{ tx with
          state := if (got ++ cmd.data).length = n then .transferPairs else .memo },
          (cborRead { ctx with
            cborBuf := got ++ cmd.data, cborLength := n - (got ++ cmd.data).length }).2⟩ :
          WithDataBlob SignTransferWithScheduleContext)
        txState := { s.txState with
          hash := s.txState.hash ++ cmd.data ++ if (got ++ cmd.data).length = n
            then [UInt8.ofNat tx.remainingNumberOfScheduledAmounts] else [] }
        log := log }) :
    wp (scheduleMemoPacket cmd readCbor) Q E s := by
  have hlength := cborRead_cborLength hc { ctx with
    cborBuf := got ++ cmd.data, cborLength := n - (got ++ cmd.data).length }
  unfold scheduleMemoPacket
  simp only [wp_bind, wp_throwIf, wp_updateHash, wp_getCtx, hview]
  refine ⟨fun hno => absurd hp2 hno, fun _ => ?_⟩
  refine hreads.reads _ _ _ ?_
  rw [wp_bind, wp_setCtx]
  refine wp_if (fun hno => absurd haccepted hno) fun _ => wp_if (fun hdone => ?_) fun hmore => ?_
  · have hn : (got ++ cmd.data).length = n := by
      rw [hlength] at hdone
      rw [List.length_append] at hdone ⊢
      change n - _ = 0 at hdone
      omega
    unfold finishMemoScheduled
    simp only [wp_bind, wp_getCtx, wp_updateHash, wp_setCtx, InstructionContext.view_inject]
    have hQ := h (s.log ++ [.hashUpdate cmd.data] ++
      [.hashUpdate [UInt8.ofNat tx.remainingNumberOfScheduledAmounts]])
    simp only [hn, if_true, decide_true] at hQ ⊢
    exact hQ
  · have hn : (got ++ cmd.data).length ≠ n := by
      rw [hlength] at hmore
      change ¬ n - _ = 0 at hmore
      omega
    have hQ := h (s.log ++ [.hashUpdate cmd.data])
    simp only [hn, if_false, decide_false, List.append_nil] at hQ
    rw [wp_bind, wp_setCtx]
    exact hQ

theorem transferWithScheduleAndMemo_reads (hc : DecodesItems Platform.cbor)
    (hw : BlobFlow.Awaits .transferWithScheduleAndMemo w n)
    (hp : Continues .transferWithScheduleAndMemo n
      (w.global.view (WithDataBlob SignTransferWithScheduleContext)).cborContext got p)
    (h : ∀ log, wp (BlobFlow.ending .transferWithScheduleAndMemo ((got ++ p).length = n)) Q E
      { BlobFlow.read .transferWithScheduleAndMemo w n (got ++ p) with log := log })
    (log : List Event) :
    wp (handleSignTransferWithScheduleAndMemo (BlobFlow.packet .transferWithScheduleAndMemo p)
      false) Q E { BlobFlow.found .transferWithScheduleAndMemo w n got with log := log } := by
  have hdata : (BlobFlow.packet .transferWithScheduleAndMemo p).data = p :=
    List.take_of_length_le hp.short
  have hp1 : (BlobFlow.packet .transferWithScheduleAndMemo p).p1 =
    SignTransferWithScheduleContext.p1Memo := rfl
  have h1 : SignTransferWithScheduleContext.p1Memo ≠
    SignTransferWithScheduleContext.p1InitialWithMemo := by decide
  obtain ⟨hstate, hlength⟩ := hw.context
  unfold handleSignTransferWithScheduleAndMemo scheduleStart
  simp only [Bool.false_eq_true, if_false, wp_bind, wp_pure, wp_getCtx, hp1]
  refine wp_if (fun hno => absurd hno.1 h1) fun _ => ?_
  by_cases hgot : got = []
  · subst hgot
    have hview : (BlobFlow.found .transferWithScheduleAndMemo w n []).global.view
        (WithDataBlob SignTransferWithScheduleContext) =
      ⟨(w.global.view (WithDataBlob SignTransferWithScheduleContext)).tx,
        (w.global.view (WithDataBlob SignTransferWithScheduleContext)).cborContext⟩ := rfl
    rw [hview]
    refine wp_if (fun _ => ?_) fun hno => absurd ⟨trivial, hstate⟩ hno
    have hreads := reads_initial hc hlength hp
    have hfits := hp.fits
    have haccepted := hp.accepted
    rw [← hdata] at hreads hfits haccepted
    refine wp_scheduleMemoPacket hc rfl hview hreads hfits haccepted fun log => ?_
    have := h log
    simpa only [hdata, BlobFlow.read, BlobFlow.found, BlobFlow.contextAfter, BlobFlow.cborAfter,
      BlobFlow.hashedBehind, List.append_nil, List.nil_append] using this
  · have hlt := got_lt hp
    have hview : (BlobFlow.found .transferWithScheduleAndMemo w n got).global.view
        (WithDataBlob SignTransferWithScheduleContext) =
      ⟨{ (w.global.view (WithDataBlob SignTransferWithScheduleContext)).tx with state := .memo },
        { (w.global.view (WithDataBlob SignTransferWithScheduleContext)).cborContext with
          cborBuf := got, cborLength := n - got.length }⟩ := by
      rw [BlobFlow.found, if_neg hgot, BlobFlow.contextAfter]
      simp only [InstructionContext.view_inject, cborAfter_incomplete hlt, if_neg hlt.ne]
    rw [hview]
    refine wp_if (fun hno => by cases hno.2) fun _ => ?_
    refine wp_if (fun _ => ?_) fun hno => absurd ⟨trivial, rfl⟩ hno
    have hreads := reads_content hc hp
    have hfits := hp.fits
    have haccepted := hp.accepted
    rw [← hdata] at hreads hfits haccepted
    refine wp_scheduleMemoPacket hc rfl hview hreads hfits haccepted fun log => ?_
    have := h log
    simpa only [hdata, BlobFlow.read, BlobFlow.found, BlobFlow.contextAfter, BlobFlow.cborAfter,
      BlobFlow.hashedBehind, List.append_assoc] using this

theorem registerData_reads (hc : DecodesItems Platform.cbor)
    (hw : BlobFlow.Awaits .registerData w n)
    (hp : Continues .registerData n
      (w.global.view (WithDataBlob SignRegisterData)).cborContext got p)
    (h : ∀ log, wp (BlobFlow.ending .registerData ((got ++ p).length = n)) Q E
      { BlobFlow.read .registerData w n (got ++ p) with log := log }) (log : List Event) :
    wp (handleSignRegisterData (BlobFlow.packet .registerData p) false) Q E
      { BlobFlow.found .registerData w n got with log := log } := by
  have hdata : (BlobFlow.packet .registerData p).data = p := List.take_of_length_le hp.short
  have hp1 : (BlobFlow.packet .registerData p).p1 = SignRegisterData.p1Data := rfl
  have h1 : SignRegisterData.p1Data ≠ SignRegisterData.p1Initial := by decide
  have hpos : 0 < p.length := List.length_pos_iff.mpr hp.nonempty
  have hfits := hp.fits
  have hlt := got_lt hp
  obtain ⟨hstate, hdataLength, hlength⟩ := hw.context
  -- What the handler does with the context it finds.
  have hpacket {state : RegisterDataState} {ctx : CborContext}
      (hview : (BlobFlow.found .registerData w n got).global.view
        (WithDataBlob SignRegisterData) = ⟨⟨n - got.length, state⟩, ctx⟩)
      (hread : ∀ (t : World) (Q : UInt16 × CborContext → World → Prop),
        Q (cborRead { ctx with
          cborBuf := got ++ p, cborLength := n - (got ++ p).length }) t →
        wp (readRegisterData state (n - got.length - p.length) ctx p) Q E t)
      (hsame : ∀ l k, { ctx with cborBuf := l, cborLength := k } =
        { (w.global.view (WithDataBlob SignRegisterData)).cborContext with
          cborBuf := l, cborLength := k }) :
      wp (registerDataData (BlobFlow.packet .registerData p)) Q E
        { BlobFlow.found .registerData w n got with log := log } := by
    unfold registerDataData
    simp only [wp_bind, wp_throwIf, wp_getCtx, wp_updateHash, hview, hdata]
    refine ⟨fun hno => absurd hno (by omega), fun _ => hread _ _ ?_⟩
    rw [wp_bind, wp_setCtx, hsame]
    have hleft : n - got.length - p.length = n - (got ++ p).length := by
      rw [List.length_append]
      omega
    refine wp_if (fun hno => absurd hp.accepted hno) fun _ => ?_
    have hQ := h (log ++ [.hashUpdate p])
    rw [hleft]
    refine wp_if (fun hdone => ?_) fun hmore => ?_
    · have hn : (got ++ p).length = n := by
        rw [List.length_append] at hdone ⊢
        omega
      simpa only [BlobFlow.read, BlobFlow.found, BlobFlow.contextAfter, BlobFlow.cborAfter,
        BlobFlow.hashedBehind, BlobFlow.ending, hn, decide_true, ite_self, List.append_nil,
        List.append_assoc] using hQ
    · have hn : (got ++ p).length ≠ n := by omega
      simpa only [BlobFlow.read, BlobFlow.found, BlobFlow.contextAfter, BlobFlow.cborAfter,
        BlobFlow.hashedBehind, BlobFlow.ending, hn, decide_false, ite_self, List.append_nil,
        List.append_assoc] using hQ
  unfold handleSignRegisterData
  simp only [Bool.false_eq_true, if_false, wp_bind, wp_getCtx, hp1]
  refine wp_if (fun hno => absurd hno.1 h1) fun _ => ?_
  refine wp_if (fun _ => ?_) fun hno => absurd trivial hno
  by_cases hgot : got = []
  · subst hgot
    have hview : (BlobFlow.found .registerData w n []).global.view
        (WithDataBlob SignRegisterData) =
      ⟨⟨n - 0, .payloadStart⟩, (w.global.view (WithDataBlob SignRegisterData)).cborContext⟩ := by
      show w.global.view (WithDataBlob SignRegisterData) = _
      rw [Nat.sub_zero, ← hstate, ← hdataLength]
    exact hpacket hview (fun t Q hQ => (reads_initial hc hlength hp).reads t Q E hQ) fun _ _ => rfl
  · have hview : (BlobFlow.found .registerData w n got).global.view
        (WithDataBlob SignRegisterData) =
      ⟨⟨n - got.length, .payload⟩,
        { (w.global.view (WithDataBlob SignRegisterData)).cborContext with
          cborBuf := got, cborLength := n - got.length }⟩ := by
      rw [BlobFlow.found, if_neg hgot, BlobFlow.contextAfter]
      simp only [InstructionContext.view_inject, cborAfter_incomplete hlt]
    have htaken := (hp.taken rfl).resolve_left hgot
    refine hpacket hview (fun t Q hQ => ?_) fun _ _ => rfl
    unfold readRegisterData
    rw [wp_bind, wp_throwIf]
    exact ⟨fun hno => absurd (by omega) hno, fun _ => (reads_content hc hp).reads t Q E hQ⟩

/-- Whatever the flow, its handler reads the packet and answers it. -/
theorem reads_packet (hc : DecodesItems Platform.cbor) (hw : flow.Awaits w n)
    (hp : Continues flow n (flow.cborContext w) got p)
    (h : ∀ log, wp (flow.ending ((got ++ p).length = n)) Q E
      { flow.read w n (got ++ p) with log := log }) (log : List Event) :
    wp (dispatchInstruction (flow.packet p) false) Q E { flow.found w n got with log := log } := by
  have hdata : (flow.packet p).lc ≠ 0 := by
    have hlen : (p.take 255).length = p.length := by rw [List.take_of_length_le hp.short]
    exact hlen.trans_ne (List.length_pos_iff.mpr hp.nonempty).ne'
  cases flow with
  | transferWithMemo =>
    have hdispatch : dispatchInstruction (BlobFlow.packet .transferWithMemo p) false =
      withData _ (handleSignTransferWithMemo _ false) := rfl
    rw [hdispatch, withData, if_neg hdata]
    exact transferWithMemo_reads hc hw hp h log
  | transferWithScheduleAndMemo =>
    have hdispatch : dispatchInstruction (BlobFlow.packet .transferWithScheduleAndMemo p) false =
      withData _ (handleSignTransferWithScheduleAndMemo _ false) := rfl
    rw [hdispatch, withData, if_neg hdata]
    exact transferWithScheduleAndMemo_reads hc hw hp h log
  | registerData =>
    have hdispatch : dispatchInstruction (BlobFlow.packet .registerData p) false =
      withData _ (handleSignRegisterData _ false) := rfl
    rw [hdispatch, withData, if_neg hdata]
    exact registerData_reads hc hw hp h log

/-! ## Runs of packets -/

omit [Platform] in
/-- The state a program leads to. -/
def ran (x : App Unit) (s : World) : World :=
  match x s with
  | .ok _ t => t
  | .error _ t => t

/-- The answer to a packet: success, or a review that owes it. -/
def Welcomed (w : World) : Prop :=
  w.replyPending = true ∨ w.replyPending = false ∧
     ∃ before, w.log = before ++ [.reply [] swoSuccess]

/-- The packets arrive one by one, and each of them is accepted. -/
inductive Accepts (ins : UInt8) : World → List Command → World → Prop
  | nil (w : World) : Accepts ins w [] w
  | cons {w v u : World} {cmd : Command} {cmds : List Command}
      (hs : step w (.apdu cmd) = some v) (hl : v.latch = some ins) (hw : Welcomed v)
      (h : Accepts ins v cmds u) : Accepts ins w (cmd :: cmds) u

/-- The state between two packets, `got` having been read. -/
def BlobFlow.resting (flow : BlobFlow) (w : World) (n : ℕ) (got : Bytes) : World :=
  if got = [] then w else ran (flow.ending (got.length = n)) (flow.read w n got)

/-- Whether a review follows the blob at once. -/
def BlobFlow.reviews : BlobFlow → Bool
  | .transferWithMemo => false
  | .transferWithScheduleAndMemo | .registerData => true

/-- A packet is answered; the last one is, if at all, by a review. -/
theorem wp_ending {complete : Bool} (hl : s.latch = some flow.ins) (hp : s.replyPending = true) :
    wp (flow.ending complete) (fun _ t => t.latch = some flow.ins ∧ Welcomed t ∧
      t.txState = s.txState ∧ t.replyPending = (complete && flow.reviews)) E s := by
  have hreply (h : (complete && flow.reviews) = false) : wp sendSuccessNoIdle
      (fun _ t => t.latch = some flow.ins ∧ Welcomed t ∧ t.txState = s.txState ∧
        t.replyPending = (complete && flow.reviews)) E s := by
    unfold sendSuccessNoIdle sendSuccessResultNoIdle
    rw [wp_ioSendResponse, h]
    exact ⟨hl, .inr ⟨rfl, s.log, rfl⟩, rfl, rfl⟩
  cases complete with
  | false => cases flow <;> exact hreply rfl
  | true =>
    cases flow with
    | transferWithMemo => exact hreply rfl
    | transferWithScheduleAndMemo =>
      unfold BlobFlow.ending startInitialScheduledTransferDisplay
      simp only [wp_bind, wp_getCtx, wp_get]
      cases (Platform.backend : Backend) <;>
        simp only [nbglReview, wp_showScreen] <;>
        exact ⟨hl, .inl hp, trivial, hp⟩
    | registerData =>
      unfold BlobFlow.ending uiRegisterDataPayloadDisplay
      simp only [wp_bind, wp_getCtx]
      cases (Platform.backend : Backend) with
      | nbgl =>
        refine wp_if (fun _ => ?_) fun _ => ?_ <;>
          simp only [nbglStagedReview, nbglSignReview, nbglReview, wp_showScreen] <;>
          exact ⟨hl, .inl hp, trivial, hp⟩
      | bagl =>
        simp only [wp_showScreen]
        exact ⟨hl, .inl hp, trivial, hp⟩

instance {complete : Bool} {base base' : List Event} :
    Respects (Hidden Eq base base') (flow.ending complete) := by
  cases flow <;> cases complete <;> unfold BlobFlow.ending <;> infer_instance

omit [Platform] in
/-- A program that cannot tell the logs leads to states that differ in them
    only. -/
theorem sameButLog_ran {x : App Unit} [∀ base base', Respects (Hidden Eq base base') x]
    {t u : World} (h : SameButLog s t) (hx : x t = .ok () u) : SameButLog (ran x s) u := by
  have hsame := (inferInstance : Respects (Hidden Eq s.log t.log) x).respects s t
    ⟨[], s.screen, rfl, by simp, by simpa [SameButLog] using h⟩
  unfold ran
  cases hs : x s with
  | ok a v =>
    rw [hs, hx] at hsame
    obtain ⟨-, es, screen, rfl, -, rfl⟩ := hsame
    rfl
  | error e v =>
    rw [hs, hx] at hsame
    exact hsame.elim

/-- Between two packets the next one finds what was read. -/
theorem found_of_resting (hw : flow.Awaits w n) (hlt : got.length < n)
    (h : SameButLog (flow.resting w n got) s) :
    s.latch = some flow.ins ∧ s.replyPending = false ∧
      s.delivered.arrived flow.ins =
        { flow.found w n got with log := s.log ++ [.delivered] ++ [.packet flow.ins] } := by
  unfold BlobFlow.resting at h
  by_cases hgot : got = []
  · subst hgot
    rw [if_pos rfl, SameButLog] at h
    rw [h]
    refine ⟨hw.latch, hw.replyPending, ?_⟩
    simp [World.delivered, World.arrived, BlobFlow.found]
  · have hne : decide (got.length = n) = false := decide_eq_false hlt.ne
    have hending : flow.ending false = sendSuccessNoIdle := by cases flow <;> rfl
    have hran : ran (flow.ending false) (flow.read w n got) = { flow.read w n got with
        replyPending := false
        log := (flow.read w n got).log ++ [.reply [] swoSuccess] } := by
      rw [hending]
      rfl
    rw [if_neg hgot, hne, hran, SameButLog] at h
    rw [h]
    refine ⟨hw.latch, rfl, ?_⟩
    simp [World.delivered, World.arrived, BlobFlow.found, BlobFlow.read, hgot, hlt.ne]

/-- A packet is accepted, and the state depends on the bytes read so far. -/
theorem packet_accepted (hc : DecodesItems Platform.cbor) (hw : flow.Awaits w n)
    (hp : Continues flow n (flow.cborContext w) got p) (h : SameButLog (flow.resting w n got) s) :
    ∃ t, step s (.apdu (flow.packet p)) = some t ∧ t.latch = some flow.ins ∧ Welcomed t ∧
      SameButLog (flow.resting w n (got ++ p)) t := by
  obtain ⟨hl, hpending, hfound⟩ := found_of_resting hw (got_lt hp) h
  refine step_next hl hpending ?_
  change wp _ _ _ (s.delivered.arrived flow.ins)
  rw [hfound]
  refine reads_packet hc hw hp (fun log => ?_) _
  have hne : got ++ p ≠ [] := fun h => hp.nonempty (List.append_eq_nil_iff.mp h).2
  rw [BlobFlow.resting, if_neg hne]
  have hsame : SameButLog (flow.read w n (got ++ p))
    { flow.read w n (got ++ p) with log := log } := rfl
  have hanswer : wp (flow.ending ((got ++ p).length = n)) _ (fun _ _ => False)
      { flow.read w n (got ++ p) with log := log } := wp_ending hw.latch rfl
  unfold wp at hanswer ⊢
  cases hx : flow.ending ((got ++ p).length = n)
      { flow.read w n (got ++ p) with log := log } with
  | ok a t =>
    rw [hx] at hanswer
    exact ⟨hanswer.1, hanswer.2.1, sameButLog_ran hsame hx⟩
  | error e t =>
    rw [hx] at hanswer
    exact hanswer.elim

/-- The packets of a split are accepted one after the other. -/
theorem packets_accepted (hc : DecodesItems Platform.cbor) (hw : flow.Awaits w n)
    {ps : List Bytes} (hps : ∀ before p after, ps = before ++ p :: after →
      Continues flow n (flow.cborContext w) (got ++ before.flatten) p)
    (h : SameButLog (flow.resting w n got) s) :
    ∃ t, Accepts flow.ins s (ps.map flow.packet) t ∧
      SameButLog (flow.resting w n (got ++ ps.flatten)) t := by
  induction ps generalizing got s with
  | nil => exact ⟨s, .nil s, by simpa using h⟩
  | cons p ps ih =>
    have hp := hps [] p ps rfl
    rw [List.flatten_nil, List.append_nil] at hp
    obtain ⟨t, hs, hl, hwelcomed, ht⟩ := packet_accepted hc hw hp h
    have hrest : ∀ before q after, ps = before ++ q :: after →
        Continues flow n (flow.cborContext w) (got ++ p ++ before.flatten) q := by
      intro before q after heq
      have := hps (p :: before) q after (by rw [heq]; rfl)
      rwa [List.flatten_cons, ← List.append_assoc] at this
    obtain ⟨u, hu, hsame⟩ := ih hrest ht
    refine ⟨u, .cons hs hl hwelcomed hu, ?_⟩
    rwa [List.flatten_cons, ← List.append_assoc]

omit [Platform] in
/-- A displayable item is short enough for the buffer. -/
theorem encode_length_le {i : Item} (hi : Displayable i) :
    i.encode.length ≤ maxCborBlobSize := by
  have hhead := encodeHead_length i.major i.argument
  rw [Item.encode, List.length_append, hhead, maxCborBlobSize]
  cases i with
  | unsigned n => simp only [Item.content, List.length_nil, maxCborStringSize]; split_ifs <;> omega
  | negative n => simp only [Item.content, List.length_nil, maxCborStringSize]; split_ifs <;> omega
  | text t =>
    have hlen : t.length ≤ maxCborStringSize := hi.1
    have hargument : (Item.text t).argument = t.length := rfl
    simp only [Item.content, hargument, maxCborStringSize] at hlen ⊢
    split_ifs <;> omega

/-- Every packet of a split of an item continues the blob. -/
theorem continues_of_split (hc : DecodesItems Platform.cbor) {i : Item} (hi : Displayable i)
    {ps : List Bytes} (hs : Split i.encode ps) (ht : flow.Takes ps) (ctx : CborContext)
    {before after : List Bytes} (heq : ps = before ++ p :: after) :
    Continues flow i.encode.length ctx before.flatten p := by
  have hwhole : before.flatten ++ (p ++ after.flatten) = i.encode := by
    rw [← hs.whole, heq]
    simp
  have hlen := congrArg List.length hwhole
  rw [List.length_append, List.length_append] at hlen
  have hmem : p ∈ ps := heq ▸ List.mem_append_right _ List.mem_cons_self
  refine ⟨(hs.packets p hmem).1, (hs.packets p hmem).2, by omega, encode_length_le hi, ?_,
    fun hflow => ?_⟩
  · by_cases hdone : i.encode.length - (before.flatten ++ p).length = 0
    · have hlast : after.flatten = [] := by
        rw [List.length_append] at hdone
        exact List.eq_nil_of_length_eq_zero (by omega)
      rw [hlast, List.append_nil] at hwhole
      rw [cborRead, if_pos hdone, hwhole]
      obtain ⟨-, -, ⟨hsw, -⟩ | ⟨-, hno⟩⟩ := blobParsed_parsedCbor hc
        { ctx with cborBuf := i.encode, cborLength := i.encode.length - i.encode.length }
      · exact hsw
      · exact absurd ⟨i, hi, rfl⟩ hno
    · rw [cborRead_incomplete hdone]
  · -- At most two packets: the first one, or the one that completes the blob.
    have htwo := ht hflow
    rw [heq] at htwo
    simp only [List.length_append, List.length_cons] at htwo
    by_cases hb : before = []
    · left
      rw [hb, List.flatten_nil]
    · right
      have hbefore : 0 < before.length := List.length_pos_iff.mpr hb
      have hafter : after = [] := List.eq_nil_of_length_eq_zero (by omega)
      rw [hafter, List.flatten_nil, List.length_nil] at hlen
      omega

/-- The state behind a complete blob: the blob has been hashed, and where a
    review follows it is on screen. -/
theorem resting_complete (hw : flow.Awaits w n) (hgot : got ≠ []) (hn : got.length = n) :
    (flow.resting w n got).txState.hash = w.txState.hash ++ got ++ flow.hashedBehind w ∧
      (flow.resting w n got).replyPending = flow.reviews := by
  have hanswer : wp (flow.ending true) _ (fun _ _ => False) (flow.read w n got) :=
    wp_ending hw.latch rfl
  rw [BlobFlow.resting, if_neg hgot, decide_eq_true hn]
  unfold ran
  unfold wp at hanswer
  cases hx : flow.ending true (flow.read w n got) with
  | ok a t =>
    rw [hx] at hanswer
    obtain ⟨-, -, htx, hpending⟩ := hanswer
    refine ⟨?_, hpending⟩
    simp only [htx, BlobFlow.read, if_pos hn]
  | error e t =>
    rw [hx] at hanswer
    exact hanswer.elim

/-- However a displayable item is split, its packets are accepted and it is
    hashed as a whole; whatever comes after it finds states that differ in
    their logs only. -/
theorem splits_alike (hc : DecodesItems Platform.cbor) {i : Item} (hi : Displayable i)
    (hw : flow.Awaits w i.encode.length) {ps qs : List Bytes} (hps : Split i.encode ps)
    (hqs : Split i.encode qs) (hp : flow.Takes ps) (hq : flow.Takes qs) :
    ∃ v v', Accepts flow.ins w (ps.map flow.packet) v ∧
      Accepts flow.ins w (qs.map flow.packet) v' ∧
      v.txState.hash = w.txState.hash ++ i.encode ++ flow.hashedBehind w ∧
      v.replyPending = flow.reviews ∧
      ∀ inputs, Option.Rel SameButLog (runInputs v inputs) (runInputs v' inputs) := by
  have hstart : SameButLog (flow.resting w i.encode.length []) w := by
    rw [BlobFlow.resting, if_pos rfl]
    rfl
  have accepted {ps : List Bytes} (hs : Split i.encode ps) (ht : flow.Takes ps) :
      ∃ t, Accepts flow.ins w (ps.map flow.packet) t ∧
        SameButLog (flow.resting w i.encode.length ([] ++ ps.flatten)) t :=
    packets_accepted hc hw (fun before p after heq =>
      continues_of_split hc hi hs ht (flow.cborContext w) heq) hstart
  obtain ⟨v, hv, hsame⟩ := accepted hps hp
  obtain ⟨v', hv', hsame'⟩ := accepted hqs hq
  rw [List.nil_append, hps.whole] at hsame
  rw [List.nil_append, hqs.whole] at hsame'
  have hne : i.encode ≠ [] := fun h => by
    have hpos := encodeHead_pos i.major i.argument
    have := congrArg List.length h
    rw [Item.encode, List.length_append, List.length_nil] at this
    omega
  obtain ⟨hhash, hpending⟩ := resting_complete hw hne rfl
  refine ⟨v, v', hv, hv', ?_, ?_, fun inputs => runs_sameButLog ?_ inputs⟩
  · rw [hsame]
    exact hhash
  · rw [hsame]
    exact hpending
  · rw [SameButLog] at hsame hsame' ⊢
    rw [hsame', hsame]

end Packets

/-! ## Data in more than two packets -/

/-- A data registration of three bytes, continued by the user. -/
def registerInputs : List Input :=
  [.apdu ⟨insRegisterData, 0, 0, [1, 0, 0, 4, 0x51] ++ List.replicate 60 0 ++
      [kindRegisterData] ++ [0, 3], by decide⟩,
    .activate .sendSuccessNoIdle]

/-- The text "ab". -/
def shortText : Item := .text [97, 98]

theorem displayable_shortText : Displayable shortText := by
  refine ⟨by decide, fun b hb => ?_⟩
  simp only [List.mem_cons, List.not_mem_nil, or_false] at hb
  rcases hb with rfl | rfl <;> decide

/-- REGISTER_DATA refuses the second of three packets. -/
theorem three_packets_refused :
    letI : Platform := cborDevice .nbgl
    ¬ ∀ (flow : BlobFlow) (i : Item) (w : World) (ps : List Bytes), Displayable i →
      flow.Awaits w i.encode.length → Split i.encode ps →
      ∃ v, Accepts flow.ins w (ps.map flow.packet) v := by
  let : Platform := cborDevice .nbgl
  have hrun : (runInputs World.start registerInputs).any (fun w =>
      decide (w.latch = some insRegisterData ∧ w.replyPending = false) &&
        decide ((w.global.view (WithDataBlob SignRegisterData)).tx.state = .payloadStart ∧
          (w.global.view (WithDataBlob SignRegisterData)).tx.dataLength = 3 ∧
          (w.global.view (WithDataBlob SignRegisterData)).cborContext.cborLength = 3) &&
        (step w (.apdu (BlobFlow.packet .registerData [0x62]))).any fun v =>
          (step v (.apdu (BlobFlow.packet .registerData [97]))).any fun u =>
            decide (u.latch = none)) = true := by decide +kernel
  obtain ⟨w, -, hcheck⟩ := (Option.any_eq_true _ _).mp hrun
  simp only [Bool.and_eq_true, decide_eq_true_eq] at hcheck
  obtain ⟨⟨⟨hlatch, hpending⟩, hcontext⟩, hsteps⟩ := hcheck
  obtain ⟨v, hv, hsteps⟩ := (Option.any_eq_true _ _).mp hsteps
  obtain ⟨u, hu, hfree⟩ := (Option.any_eq_true _ _).mp hsteps
  rw [decide_eq_true_eq] at hfree
  intro h
  obtain ⟨t, ht⟩ := h .registerData shortText w [[0x62], [97], [98]] displayable_shortText
    ⟨hlatch, hpending, hcontext⟩ ⟨by decide, by simp⟩
  cases ht with
  | cons hs _ _ ht =>
    obtain rfl := Option.some.inj (hv.symm.trans hs)
    cases ht with
    | cons hs hl _ _ =>
      obtain rfl := Option.some.inj (hu.symm.trans hs)
      exact absurd (hfree.symm.trans hl) (Option.some_ne_none _).symm

/-- Sent whole or in two packets, it is the same. -/
theorem shortText_splits_alike :
    letI : Platform := cborDevice .nbgl
    ∃ w v v', runInputs World.start registerInputs = some w ∧
      Accepts insRegisterData w [BlobFlow.packet .registerData [0x62, 97, 98]] v ∧
      Accepts insRegisterData w [BlobFlow.packet .registerData [0x62],
        BlobFlow.packet .registerData [97, 98]] v' ∧
      ∀ inputs, Option.Rel SameButLog (runInputs v inputs) (runInputs v' inputs) := by
  let : Platform := cborDevice .nbgl
  have hrun : (runInputs World.start registerInputs).any (fun w =>
      decide (w.latch = some insRegisterData ∧ w.replyPending = false) &&
        decide ((w.global.view (WithDataBlob SignRegisterData)).tx.state = .payloadStart ∧
          (w.global.view (WithDataBlob SignRegisterData)).tx.dataLength = 3 ∧
          (w.global.view (WithDataBlob SignRegisterData)).cborContext.cborLength = 3)) = true := by
    decide +kernel
  obtain ⟨w, hw, hcheck⟩ := (Option.any_eq_true _ _).mp hrun
  simp only [Bool.and_eq_true, decide_eq_true_eq] at hcheck
  obtain ⟨⟨hlatch, hpending⟩, hcontext⟩ := hcheck
  have hawaits : BlobFlow.Awaits .registerData w shortText.encode.length :=
    ⟨hlatch, hpending, hcontext⟩
  have hwhole : Split shortText.encode [[0x62, 97, 98]] := ⟨by decide, by simp⟩
  have htwo : Split shortText.encode [[0x62], [97, 98]] := ⟨by decide, by simp⟩
  obtain ⟨v, v', hv, hv', -, -, hsame⟩ := splits_alike decodesItems_itemCursor
    displayable_shortText hawaits hwhole htwo (fun _ => by simp) (fun _ => by simp)
  exact ⟨w, v, v', hw, hv, hv', hsame⟩

end Concordium
