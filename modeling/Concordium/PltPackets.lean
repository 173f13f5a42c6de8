/-
  How a protocol-level token transaction is streamed.

  The first packet opens the transaction with its header, the token id and the
  length of the operations; the others bring the operations, which are parsed
  and reviewed when all of them have arrived.
-/
import Concordium.Flows
import Concordium.Library.Returns

namespace Concordium

open Buffer Wp Runs Returns

/-! ## What the parser leaves alone -/

/-- The received bytes, the token and the fee are the same. -/
structure SameStream (ctx ctx' : SignPltContext) : Prop where
  state : ctx'.state = ctx.state
  cborTotalLength : ctx'.cborTotalLength = ctx.cborTotalLength
  cborReceived : ctx'.cborReceived = ctx.cborReceived
  cborBuf : ctx'.cborBuf = ctx.cborBuf
  tokenId : ctx'.tokenId = ctx.tokenId
  tokenIdLength : ctx'.tokenIdLength = ctx.tokenIdLength
  displayFee : ctx'.displayFee = ctx.displayFee
  hasFeeDisplay : ctx'.hasFeeDisplay = ctx.hasFeeDisplay

section Parser
variable {T : TinyCbor} {ctx ctx' ctx'' : SignPltContext}

theorem SameStream.refl : SameStream ctx ctx := ⟨rfl, rfl, rfl, rfl, rfl, rfl, rfl, rfl⟩

theorem SameStream.trans (h : SameStream ctx ctx') (h' : SameStream ctx' ctx'') :
    SameStream ctx ctx'' :=
  ⟨h'.1.trans h.1, h'.2.trans h.2, h'.3.trans h.3, h'.4.trans h.4, h'.5.trans h.5, h'.6.trans h.6,
    h'.7.trans h.7, h'.8.trans h.8⟩

theorem parseAmountValue_stream {it : T.Value} :
    Yields (fun r => SameStream ctx r.1) (parseAmountValue T ctx it) := by
  unfold parseAmountValue
  iterate 10 refine yields_then fun _ => ?_
  exact yields_pure ⟨rfl, rfl, rfl, rfl, rfl, rfl, rfl, rfl⟩

theorem addressLoop_stream {infoFuel fuel : ℕ} {addr : T.Value} {dataSeen : Bool} :
    Yields (fun r => SameStream ctx r.1) (addressLoop T infoFuel fuel ctx addr dataSeen) := by
  induction fuel generalizing ctx addr dataSeen with
  | zero => exact yields_none
  | succ fuel ih =>
    unfold addressLoop
    refine yields_if (fun _ => yields_pure .refl) fun _ => ?_
    refine yields_then fun _ => yields_then fun _ => yields_if (fun _ => ?_) fun _ =>
      yields_if (fun _ => ?_) fun _ => yields_none
    · exact yields_then fun _ => ih
    · refine yields_then fun _ => yields_then fun _ => yields_then fun ⟨_, _⟩ => ?_
      exact yields_mono (fun r hr => ⟨hr.1, hr.2, hr.3, hr.4, hr.5, hr.6, hr.7, hr.8⟩) ih

theorem parseAddressValue_stream {fuel : ℕ} {it : T.Value} :
    Yields (fun r => SameStream ctx r.1) (parseAddressValue T fuel ctx it) := by
  unfold parseAddressValue
  iterate 4 refine yields_then fun _ => ?_
  refine yields_bind (yields_mono (fun r hr => ?_) addressLoop_stream)
  exact yields_then fun _ => yields_then fun _ => yields_pure hr

theorem decodeMemoCbor_stream {bytes : Bytes} :
    Yields (fun ctx' => SameStream ctx ctx') (decodeMemoCbor T ctx bytes) := by
  unfold decodeMemoCbor
  iterate 6 refine yields_then fun _ => ?_
  split
  · exact yields_pure ⟨rfl, rfl, rfl, rfl, rfl, rfl, rfl, rfl⟩
  · exact yields_none

theorem parseMemoValue_stream {it : T.Value} :
    Yields (fun r => SameStream ctx r.1) (parseMemoValue T ctx it) := by
  unfold parseMemoValue
  iterate 4 refine yields_then fun _ => ?_
  refine yields_bind (yields_mono (fun r hr => ?_) decodeMemoCbor_stream)
  refine yields_then fun _ => yields_pure ?_
  exact ⟨hr.1, hr.2, hr.3, hr.4, hr.5, hr.6, hr.7, hr.8⟩

theorem yields_orFail {α : Type} {P : α → Prop} {sw : UInt16} {x : Option α} (h : Yields P x) :
    Yields P (orFail sw x) := by
  cases x with
  | none => exact yields_error
  | some a => exact yields_pure (h a rfl)

theorem parsePltField_stream {fuel : ℕ} {fieldName : Bytes} {fields : PltFields} {inner : T.Value} :
    Yields (fun r => SameStream fields.ctx r.1.ctx)
      (parsePltField T fuel fieldName fields inner) := by
  unfold parsePltField
  refine yields_if (fun _ => ?_) fun _ => yields_if (fun _ => ?_) fun _ => yields_if (fun _ => ?_)
    fun _ => yields_error
  · refine yields_bind (yields_mono (fun r hr => ?_) (yields_orFail parseAmountValue_stream))
    exact yields_then fun _ => yields_pure hr
  · exact yields_bind (yields_mono (fun r hr => yields_pure hr)
      (yields_orFail parseAddressValue_stream))
  · exact yields_bind (yields_mono (fun r hr => yields_pure hr)
      (yields_orFail parseMemoValue_stream))

theorem pltFieldLoop_stream {valueFuel fuel : ℕ} {fields : PltFields} {inner : T.Value} :
    Yields (fun r => SameStream fields.ctx r.1.ctx)
      (pltFieldLoop T valueFuel fuel fields inner) := by
  induction fuel generalizing fields inner with
  | zero => exact yields_error
  | succ fuel ih =>
    unfold pltFieldLoop
    refine yields_if (fun _ => yields_pure .refl) fun _ => ?_
    refine yields_then fun _ => yields_then fun _ => ?_
    exact yields_bind (yields_mono (fun r hr => yields_mono (fun r' hr' => hr.trans hr') ih)
      parsePltField_stream)

theorem parsePltOperation_stream {fuel : ℕ} {opMap : T.Value} :
    Yields (fun r => SameStream ctx r.1.ctx) (parsePltOperation T fuel ctx opMap) := by
  unfold parsePltOperation
  iterate 5 refine yields_then fun _ => ?_
  refine yields_bind (yields_mono (fun r hr => ?_) pltFieldLoop_stream)
  refine yields_then fun _ => yields_then fun _ => yields_pure ?_
  exact ⟨hr.1, hr.2, hr.3, hr.4, hr.5, hr.6, hr.7, hr.8⟩

theorem parsePltCbor_stream {cbor : Bytes} :
    Yields (fun ctx' => SameStream ctx ctx') (parsePltCbor T ctx cbor) := by
  unfold parsePltCbor
  iterate 6 refine yields_then fun _ => ?_
  refine yields_bind (yields_mono (fun r hr => ?_) parsePltOperation_stream)
  iterate 5 refine yields_then fun _ => ?_
  exact yields_pure hr

end Parser

/-! ## The stream -/

/-- Everything that was parsed is gone. -/
def PltForgotten (global : InstructionContext) : Prop :=
  global = .zeroed ∨ global = .signPlt { state := .initial }

/-- No transaction is open, and none is left behind. -/
structure PltRefused (t : World) : Prop where
  latch : t.latch = none
  reply : t.replyPending = false
  forgotten : PltForgotten t.global

/-- What a first packet opens: behind the path and the header stand the token id
    and the length of the operations, and a fee that is not signed. -/
structure PltOpening [Platform] (first : Command) where
  header : Bytes
  id : Bytes
  total : ℕ
  /-- What the review shows of the fee. -/
  fee : Buf 30 × Bool
  header_length : header.length = 60
  payload : ∃ path kind suffix, first.data = path ++ header ++ [kind] ++
      (UInt8.ofNat id.length :: (id ++ (toBe 4 total ++ suffix))) ∧
    path.length = 1 + (first.data.getD 0 0).toNat * 4 ∧
    suffix.length = feeSuffix first.p2 ∧ ∃ u, readFee first.p2 suffix 0 u = .ok fee u
  id_length : 1 ≤ id.length ∧ id.length ≤ pltTokenIdMax
  id_text : isDisplayableText id = true
  total_le : 0 < total ∧ total ≤ appPltCborMax

/-- The context when `got` has arrived. -/
def PltOpening.held [Platform] {first : Command} (o : PltOpening first) (got : Bytes) :
    SignPltContext where
  state := .cbor
  cborTotalLength := o.total
  cborReceived := got.length
  tokenId := .ofBytes 129 (o.id ++ [0])
  tokenIdLength := o.id.length
  cborBuf := .ofBytes 512 got
  displayFee := o.fee.1
  hasFeeDisplay := o.fee.2

/-- The operations have arrived as far as `got`. -/
structure PltStream [Platform] {first : Command} (o : PltOpening first) (got : Bytes)
    (w : World) : Prop where
  fits : got.length ≤ o.total
  same : SameStream (o.held got) (w.global.view SignPltContext)
  /-- Nothing is parsed before the last packet. -/
  missing : got.length < o.total → w.global.view SignPltContext = o.held got
  hashed : w.txState.hash =
    o.header ++ [kindPlt] ++ (UInt8.ofNat o.id.length :: (o.id ++ (toBe 4 o.total ++ got)))

section Handler
variable [Platform] {cmd first : Command} {o : PltOpening first} {s : World}
  {Q : Unit → World → Prop} {E : Exception → World → Prop}

omit [Platform] in
theorem wp_pltRefuse {sw : UInt16} (h : ∀ t, PltRefused t → Q () t) : wp (pltRefuse sw) Q E s := by
  unfold pltRefuse
  rw [wp_bind, wp_setCtx, wp_sendRejection]
  exact h _ ⟨rfl, rfl, .inr rfl⟩

/-- The text of the amount fits its row. -/
def AmountFits (plt : SignPltContext) : Prop :=
  plt.opType.showsAmount = true → ∃ text, Platform.formatFpu64Trimmed fpu64TmpLen
      plt.amountSignificand (if plt.amountExponent < 0 then plt.amountExponent.natAbs else 0) =
        some text ∧
    (text.takeWhile (· != 0)).length + 1 + (plt.tokenId.bytes.take plt.tokenIdLength).length + 1 ≤
      170

/-- The rows of a parsed transaction are prepared if the amount fits. -/
theorem wp_formatPltDisplay {plt : SignPltContext} {Q : SignPltContext → World → Prop}
    (hgo : AmountFits plt → ∀ op amount address, Q { plt with
      displayOp := op, displayAmount := amount, displayAddress := address } s)
    (hno : ¬ AmountFits plt → ∀ sw, E (.statusWord sw) s) (hfault : ¬ ExactTexts → E .fault s) :
    wp (formatPltDisplay plt) Q E s := by
  have address {op : Buf 23} {amount : Buf 170} (hfits : AmountFits plt) :
      wp (do
        let displayAddress ← (do
          if plt.opType.showsAddress then pltAddressText plt else return plt.displayAddress)
        return { plt with
          displayOp := op
          displayAmount := amount
          displayAddress := displayAddress }) Q E s := by
    rw [wp_bind]
    refine wp_if (fun _ => ?_) fun _ => hgo hfits op amount _
    have question : wp (memmove plt.displayAddress 0 (ascii "?" ++ [0]))
        (fun address t => wp (pure { plt with
          displayOp := op, displayAmount := amount, displayAddress := address }) Q E t) E s := by
      rw [wp_memmove]
      exact ⟨fun _ => hgo hfits op amount _, fun hno => absurd (by decide) hno⟩
    unfold pltAddressText base58checkEncode
    simp only [wp_bind, wp_throwIf, wp_pure]
    refine ⟨fun hlen => absurd (Buf.bytes_length _) hlen, fun _ => ?_⟩
    split
    · exact question
    · exact question
    · rename_i text htext
      rw [wp_memmove]
      refine ⟨fun _ => hgo hfits op amount _, fun hroom => hfault fun hx => hroom ?_⟩
      have := (addressText_some hx (Buf.bytes_length plt.address) htext).2
      rw [List.length_append, this]
      decide
  unfold formatPltDisplay
  rw [wp_bind, wp_memmove]
  refine ⟨fun _ => ?_, fun hroom => absurd ?_ hroom⟩
  · rw [wp_bind]
    refine wp_if (fun hshows => ?_) fun hhides => address fun hshows => absurd hshows hhides
    unfold pltAmountToDisplay formatFpu64Tmp
    rw [wp_bind, wp_bind]
    cases htext : Platform.formatFpu64Trimmed fpu64TmpLen plt.amountSignificand
        (if plt.amountExponent < 0 then plt.amountExponent.natAbs else 0) with
    | none =>
      refine hno (fun hfits => ?_) _
      obtain ⟨text, htext', -⟩ := hfits hshows
      cases htext.symm.trans htext'
    | some text =>
      simp only [wp_pure, wp_bind, wp_throwIf]
      refine ⟨fun hlong => hno (fun hfits => ?_) _, fun hshort => ?_⟩
      · obtain ⟨text', htext', hle⟩ := hfits hshows
        obtain rfl := Option.some.inj (htext.symm.trans htext')
        omega
      · rw [wp_memmove]
        refine ⟨fun _ => address fun _ => ⟨text, htext, by omega⟩, fun hroom => absurd ?_ hroom⟩
        simp only [List.length_append, List.length_singleton]
        have : (ascii " ").length = 1 := by decide
        omega
  · cases plt.opType <;> decide

/-- A packet that continues a stream of which `got` has arrived. -/
def PltContinues (total : ℕ) (got : Bytes) (cmd : Command) : Prop :=
  cmd.p1 = pltP1Cont ∧ cmd.p2 = 0x00 ∧ cmd.data ≠ [] ∧ got.length + cmd.data.length ≤ total

/-- The review of the operations in `cbor`. -/
structure PltReviewing (o : PltOpening first) (cbor : Bytes) (w : World) : Prop where
  parsed : ∃ after u, parsePltCbor Platform.cbor (o.held cbor) cbor = .ok after ∧
    formatPltDisplay after u = .ok (w.global.view SignPltContext) u
  actions : w.screen.actions = signFlowShared
  rows : w.screen.rows = accountReview (line "Review PLT transaction" "")
    (line "Review PLT" "transaction") "Sender" "Sign PLT transaction" w.accountSender
    (pltRows (w.global.view SignPltContext))

/-- The operations in `cbor` do not parse, or their amount cannot be shown. -/
def PltUnreviewable (o : PltOpening first) (cbor : Bytes) : Prop :=
  (∃ sw, parsePltCbor Platform.cbor (o.held cbor) cbor = .error sw) ∨
    ∃ after, parsePltCbor Platform.cbor (o.held cbor) cbor = .ok after ∧ ¬ AmountFits after

theorem wp_startPltDisplay :
    wp startPltDisplay Q E s = Q () (s.reviewed (accountReview (line "Review PLT transaction" "")
      (line "Review PLT" "transaction") "Sender" "Sign PLT transaction" s.accountSender
      (pltRows (s.global.view SignPltContext)))) := by
  unfold startPltDisplay
  simp only [wp_bind, wp_getCtx, wp_get]
  cases hb : (Platform.backend : Backend) with
  | nbgl =>
    simp only [nbglSignReview, nbglReview, wp_showScreen, accountReview, hb]
    rfl
  | bagl =>
    simp only [wp_showScreen, accountReview, hb]
    rfl

/-- All the operations have arrived: they are parsed and reviewed, or refused. -/
theorem wp_pltReview {cbor : Bytes} (hlen : cbor.length ≤ 512)
    (hrefused : ∀ t, PltRefused t → PltUnreviewable o cbor → Q () t)
    (hreview : ∀ t : World, SameStream (o.held cbor) (t.global.view SignPltContext) →
      t.latch = s.latch → t.replyPending = s.replyPending → t.txState.hash = s.txState.hash →
      PltReviewing o cbor t → Q () t)
    (hthrow : ∀ sw t, PltUnreviewable o cbor → E (.statusWord sw) t)
    (hfault : ¬ ExactTexts → ∀ t, E .fault t) : wp (pltReview (o.held cbor)) Q E s := by
  unfold pltReview
  rw [show (o.held cbor).cborBuf.bytes.take (o.held cbor).cborReceived = cbor from
    Buf.take_ofBytes hlen]
  cases hparse : parsePltCbor Platform.cbor (o.held cbor) cbor with
  | error sw => exact wp_pltRefuse fun t ht => hrefused t ht (.inl ⟨sw, hparse⟩)
  | ok after =>
    have hsame : SameStream (o.held cbor) after :=
      parsePltCbor_stream after (congrArg Except.toOption hparse)
    rw [wp_bind]
    refine wp_run (wp_formatPltDisplay (fun _ op amount address hrun => ?_)
      (fun hfit sw => hthrow sw _ (.inr ⟨after, hparse, hfit⟩)) fun hx => hfault hx _)
    rw [wp_bind, wp_setCtx, wp_startPltDisplay]
    have hview (c : SignPltContext) : InstructionContext.view SignPltContext (.signPlt c) = c :=
      InstructionContext.view_inject c
    refine hreview _ ?_ rfl rfl rfl ⟨⟨after, s, hparse, ?_⟩, rfl, rfl⟩
    · exact (hview _).symm ▸
        ⟨hsame.1, hsame.2, hsame.3, hsame.4, hsame.5, hsame.6, hsame.7, hsame.8⟩
    · exact hrun.trans (congrArg (EStateM.Result.ok · s) (hview _).symm)

/-- A continuation packet: it is refused, acknowledged, or completes the
    operations, which are then parsed and reviewed. -/
theorem wp_pltCont {got : Bytes} (h : PltStream o got s) (hp1 : cmd.p1 = pltP1Cont)
    (hrefused : ∀ t, PltRefused t → (PltContinues o.total got cmd →
      got.length + cmd.data.length = o.total ∧ PltUnreviewable o (got ++ cmd.data)) → Q () t)
    (hmore : ∀ g, PltContinues o.total got cmd → got.length + cmd.data.length < o.total →
      PltStream o (got ++ cmd.data) (s.streamedOn cmd.data g) → Q () (s.streamedOn cmd.data g))
    (hreview : ∀ t, PltContinues o.total got cmd → got.length + cmd.data.length = o.total →
      t.latch = s.latch → t.replyPending = s.replyPending →
      PltStream o (got ++ cmd.data) t → PltReviewing o (got ++ cmd.data) t → Q () t)
    (hthrow : ∀ sw t, got.length + cmd.data.length = o.total →
      PltUnreviewable o (got ++ cmd.data) → E (.statusWord sw) t)
    (hfault : ¬ ExactTexts → ∀ t, E .fault t) : wp (pltCont cmd) Q E s := by
  have hrefuse (sw : UInt16) (hno : ¬ PltContinues o.total got cmd) : wp (pltRefuse sw) Q E s :=
    wp_pltRefuse fun t ht => hrefused t ht fun hc => absurd hc hno
  have hfits := h.fits
  have hsame := h.same
  unfold pltCont
  rw [wp_bind, wp_getCtx]
  refine wp_if (fun hstate => absurd hsame.state hstate) fun _ => ?_
  refine wp_if (fun hp2 => hrefuse _ fun hc => hp2 hc.2.1) fun hp2 => ?_
  refine wp_if (fun hlc => hrefuse _ fun hc => hc.2.2.1 (List.length_eq_zero_iff.mp hlc))
    fun hlc => ?_
  rw [hsame.cborTotalLength, hsame.cborReceived]
  refine wp_if (fun hover : o.total - got.length < cmd.data.length => hrefuse _ fun hc => ?_)
    fun hle : ¬ o.total - got.length < cmd.data.length => ?_
  · have := hc.2.2.2
    omega
  · have hpos : cmd.data.length ≠ 0 := hlc
    have hle : got.length + cmd.data.length ≤ o.total := by omega
    have hcont : PltContinues o.total got cmd :=
      ⟨hp1, not_ne_iff.mp hp2, fun hnil => hpos (List.length_eq_zero_iff.mpr hnil), hle⟩
    have htotal : o.total ≤ 512 := o.total_le.2
    have hnext : (got ++ cmd.data).length ≤ 512 := by rw [List.length_append]; omega
    have hhash : s.txState.hash ++ cmd.data = o.header ++ [kindPlt] ++
        (UInt8.ofNat o.id.length :: (o.id ++ (toBe 4 o.total ++ (got ++ cmd.data)))) := by
      rw [h.hashed]
      simp only [List.append_assoc, List.cons_append]
    rw [h.missing (by omega), wp_bind, wp_updateHash, wp_bind, wp_memmove]
    refine ⟨fun hw => ?_, fun hroom => absurd (show got.length + _ ≤ 512 by omega) hroom⟩
    have hheld : { o.held got with
        cborBuf := (o.held got).cborBuf.write (o.held got).cborReceived cmd.data hw
        cborReceived := (o.held got).cborReceived + cmd.lc } = o.held (got ++ cmd.data) := by
      simp only [PltOpening.held, Buf.write_ofBytes, List.length_append, Command.lc]
    rw [wp_bind, wp_setCtx, hheld]
    have hview : InstructionContext.view SignPltContext (.signPlt (o.held (got ++ cmd.data))) =
        o.held (got ++ cmd.data) := InstructionContext.view_inject _
    refine wp_if (fun hdone : (got ++ cmd.data).length = o.total => ?_)
      fun hmissing : ¬ (got ++ cmd.data).length = o.total => ?_
    · have hall : got.length + cmd.data.length = o.total := by
        rw [← hdone, List.length_append]
      refine wp_pltReview hnext (fun t ht hno => hrefused t ht fun _ => ⟨hall, hno⟩)
        (fun t hsame' hl hp hhash' hr => ?_) (fun sw t hno => hthrow sw t hall hno) hfault
      refine hreview t hcont hall hl hp ⟨hdone.le, hsame', ?_, hhash'.trans hhash⟩ hr
      exact fun hlt => absurd hdone hlt.ne
    · rw [List.length_append] at hmissing
      refine hmore _ hcont (by omega) ⟨?_, ?_, fun _ => hview, hhash⟩
      · rw [List.length_append]
        exact hle
      · exact hview.symm ▸ .refl

/-- The fee behind the signed bytes is read, or refused with a status word. -/
theorem wp_readFee {p2 : UInt8} {cdata : Bytes} {Q : Buf 30 × Bool → World → Prop}
    (hlen : feeSuffix p2 ≤ cdata.length) (hE : ∀ sw t, E (.statusWord sw) t)
    (h : ∀ fee, Q fee s) : wp (readFee p2 cdata 0) Q E s := by
  unfold readFee
  refine wp_if (fun hfee => ?_) fun _ => h _
  have hsize : feeSuffix p2 = 8 := by
    unfold feeSuffix at hfee ⊢
    split_ifs at hfee ⊢
    · rfl
    · exact absurd rfl hfee
  rw [wp_bind, wp_slice]
  refine ⟨fun hroom => ?_, fun hno => absurd (show 0 + 8 ≤ _ by omega) hno⟩
  unfold feeDisplayApplyU64
  rw [wp_bind, wp_u8be]
  refine ⟨fun _ => ?_, fun hno => absurd ?_ hno⟩
  · refine wp_if (fun _ => h _) fun _ => ?_
    rw [← bind_assoc, wp_bind]
    exact wp_amountToCcdDisplay le_rfl (hE · _) fun text _ => h _
  · rw [List.length_take_of_le (by rw [List.drop_zero]; exact hroom)]
    decide

/-- What the first packet declares behind its header. -/
structure PltDeclares (cmd : Command) (cdata id : Bytes) (total : ℕ) (fee : Buf 30 × Bool) :
    Prop where
  payload : ∃ suffix, cdata = UInt8.ofNat id.length :: (id ++ (toBe 4 total ++ suffix)) ∧
    suffix.length = feeSuffix cmd.p2 ∧ ∃ u, readFee cmd.p2 suffix 0 u = .ok fee u
  id_length : 1 ≤ id.length ∧ id.length ≤ pltTokenIdMax
  id_text : isDisplayableText id = true
  total_le : 0 < total ∧ total ≤ appPltCborMax

omit [Platform] in
/-- The token behind its length, and the length of the operations. -/
theorem declared_bytes {len : UInt8} {rest : Bytes} (h : len.toNat + 4 ≤ rest.length) :
    UInt8.ofNat (rest.take len.toNat).length ::
        (rest.take len.toNat ++ toBe 4 (beNat ((rest.drop len.toNat).take 4))) =
      len :: (rest.take len.toNat ++ (rest.drop len.toNat).take 4) := by
  have hdrop : (rest.drop len.toNat).length = rest.length - len.toNat := List.length_drop
  have hbe := toBe_beNat ((rest.drop len.toNat).take 4)
  rw [List.length_take_of_le (by omega)] at hbe
  rw [List.length_take_of_le (by omega), hbe, UInt8.ofNat_toNat]

/-- The first packet behind its header is refused, or declares a stream. -/
theorem wp_pltInitBody {cdata : Bytes} (hctx : s.global = .signPlt { state := .initial })
    (hrefused : ∀ t, PltRefused t → Q () t)
    (hopen : ∀ id total fee log, PltDeclares cmd cdata id total fee → Q () { s with
        global := .signPlt {
          state := .cbor
          cborTotalLength := total
          tokenId := .ofBytes 129 (id ++ [0])
          tokenIdLength := id.length
          displayFee := fee.1
          hasFeeDisplay := fee.2 }
        txState := { s.txState with
          hash := s.txState.hash ++ UInt8.ofNat id.length :: (id ++ toBe 4 total) }
        replyPending := false
        log := log })
    (hE : ∀ sw t, E (.statusWord sw) t) : wp (pltInitBody cmd cdata) Q E s := by
  have hrefuse (sw : UInt16) (t : World) : wp (pltRefuse sw) Q E t := wp_pltRefuse hrefused
  unfold pltInitBody
  have hview : s.global.view SignPltContext = { state := .initial } := by
    rw [hctx]
    exact InstructionContext.view_inject _
  rw [wp_bind, wp_getCtx, hview]
  refine wp_if (fun _ => hrefuse _ _) fun hlen => wp_if (fun _ => hrefuse _ _) fun hbounds =>
    wp_if (fun _ => hrefuse _ _) fun hroom => wp_if (fun _ => hrefuse _ _) fun htext => ?_
  cases cdata with
  | nil => exact absurd (by decide) hlen
  | cons len rest =>
    simp only [List.getD_cons_zero, List.drop_succ_cons, List.drop_zero] at hbounds hroom htext
    unfold pltTokenIdMax at hbounds
    unfold pltCborTotalLenSize at hroom
    have hid : (rest.take len.toNat).length = len.toNat := List.length_take_of_le (by omega)
    have hrest : (rest.drop len.toNat).length = rest.length - len.toNat := List.length_drop
    have hwrite : 0 + ((rest.take len.toNat) ++ [0]).length ≤ 129 := by
      rw [List.length_append, hid, List.length_singleton]
      omega
    simp only [List.drop_succ_cons, List.drop_zero, List.getD_cons_zero]
    rw [wp_bind, wp_slice]
    refine ⟨fun _ => ?_, fun hno => absurd (by rw [List.length_cons]; omega) hno⟩
    rw [wp_bind, wp_updateHash, wp_bind, wp_slice]
    refine ⟨fun _ => ?_, fun hno => absurd (by omega) hno⟩
    rw [wp_bind, wp_memmove]
    refine ⟨fun hw => ?_, fun hno => absurd hwrite hno⟩
    rw [wp_bind, wp_advance]
    refine ⟨fun _ => ?_, fun hno => absurd (by omega) hno⟩
    rw [wp_bind, wp_u4be]
    refine ⟨fun _ => ?_, fun hno => absurd (by omega) hno⟩
    refine wp_if (fun _ => hrefuse _ _) fun hrange => ?_
    rw [wp_bind, wp_slice]
    refine ⟨fun _ => ?_, fun hno => absurd (by unfold pltCborTotalLenSize; omega) hno⟩
    rw [wp_bind, wp_updateHash, wp_bind, wp_advance]
    refine ⟨fun _ => ?_, fun hno => absurd (by unfold pltCborTotalLenSize; omega) hno⟩
    refine wp_if (fun _ => hrefuse _ _) fun hfee => ?_
    rw [wp_bind]
    refine wp_run (wp_readFee (not_ne_iff.mp hfee).ge hE fun fee hrun => ?_)
    have hbytes := declared_bytes (show len.toNat + 4 ≤ rest.length by omega)
    have hdeclares : PltDeclares cmd (len :: rest) (rest.take len.toNat)
        (beNat ((rest.drop len.toNat).take 4)) fee := by
      refine ⟨⟨(rest.drop len.toNat).drop 4, ?_, not_ne_iff.mp hfee, _, hrun⟩, ?_,
        by simpa using htext, ?_⟩
      · rw [← List.append_assoc, ← List.cons_append, hbytes, List.cons_append, List.append_assoc,
          List.take_append_drop, List.take_append_drop]
      · rw [hid]
        unfold pltTokenIdMax
        omega
      · rw [List.drop_zero] at hrange
        omega
    have hopened := fun log => hopen _ _ fee log hdeclares
    rw [hbytes] at hopened
    have htoken : (Buf.zero 129).write 0 (rest.take len.toNat ++ [0]) hwrite =
        .ofBytes 129 (rest.take len.toNat ++ [0]) := Buf.write_zero hwrite
    rw [← htoken, hid] at hopened
    have hcut : (len :: rest).take (1 + len.toNat) = len :: rest.take len.toNat := by
      rw [Nat.add_comm, List.take_succ_cons]
    simp only [List.drop_zero]
    rw [wp_bind, wp_setCtx, hcut, List.append_assoc, List.cons_append]
    exact hopened _

/-- An INIT packet is refused, or opens a stream. -/
theorem wp_pltInit (hctx : s.global = .signPlt { state := .initial })
    (hrefused : ∀ t, PltRefused t → Q () t)
    (hopen : ∀ (o : PltOpening cmd) t, t.latch = s.latch → t.replyPending = false →
      PltStream o [] t → Q () t)
    (hE : ∀ sw t, E (.statusWord sw) t) (hfault : ¬ ExactTexts → ∀ t, E .fault t) :
    wp (pltInit cmd) Q E s := by
  have hrefuse (sw : UInt16) (t : World) : wp (pltRefuse sw) Q E t := wp_pltRefuse hrefused
  unfold pltInit
  rw [wp_bind, wp_getCtx]
  refine wp_if (fun _ => hrefuse _ _) fun _ => wp_if (fun _ => hrefuse _ _) fun _ => ?_
  rw [wp_bind]
  refine wp_parseDerivationPath hE fun dp log hpath => ?_
  rw [wp_bind, wp_advance]
  refine ⟨fun _ => ?_, fun hno => absurd hpath hno⟩
  rw [wp_bind, wp_sha256Init, wp_bind]
  generalize hcdata : cmd.data.drop (1 + (cmd.data.getD 0 0).toNat * 4) = cdata
  refine wp_hashAccountTransactionHeaderAndKind hE hfault fun account log' hlen hheader _ _ => ?_
  rw [wp_bind, wp_advance]
  refine ⟨fun _ => ?_, fun hno => absurd hlen hno⟩
  refine wp_pltInitBody hctx hrefused (fun id total fee log'' hdeclares => ?_) hE
  obtain ⟨⟨suffix, hpayload, hsuffix, hfee⟩, hid, htext, hle⟩ := hdeclares
  have hkind : cdata.drop 60 = cdata.getD 60 0 :: cdata.drop 61 := by
    rw [List.drop_eq_getElem_cons (by omega), List.getD_eq_getElem _ _ (by omega)]
  have hdata : cmd.data = cmd.data.take (1 + (cmd.data.getD 0 0).toNat * 4) ++ cdata.take 60 ++
      [cdata.getD 60 0] ++ (UInt8.ofNat id.length :: (id ++ (toBe 4 total ++ suffix))) := by
    rw [← hpayload, List.append_assoc, List.append_assoc, List.singleton_append, ← hkind,
      List.take_append_drop, ← hcdata, List.take_append_drop]
  let o : PltOpening cmd := ⟨cdata.take 60, id, total, fee, hheader.length,
    ⟨_, _, suffix, hdata, List.length_take_of_le hpath, hsuffix, hfee⟩, hid, htext, hle⟩
  have hview {t : World} (ht : t.global = .signPlt (o.held [])) :
      t.global.view SignPltContext = o.held [] := by
    rw [ht]
    exact InstructionContext.view_inject _
  have hheld : o.held [] = {
      state := .cbor
      cborTotalLength := total
      tokenId := .ofBytes 129 (id ++ [0])
      tokenIdLength := id.length
      displayFee := fee.1
      hasFeeDisplay := fee.2 } := by
    unfold PltOpening.held
    rw [Buf.ofBytes_nil]
    rfl
  refine hopen o _ rfl rfl ⟨Nat.zero_le _, ?_, fun _ => ?_, ?_⟩
  · rw [hview (congrArg _ hheld.symm)]
    exact .refl
  · exact hview (congrArg _ hheld.symm)
  · simp only [List.nil_append, List.append_nil]
    rfl

/-- The first packet is refused, or opens a stream. -/
theorem wp_pltFirst (hz : s.global = .zeroed) (hrefused : ∀ t, PltRefused t → Q () t)
    (hopen : ∀ (o : PltOpening cmd) t, t.latch = s.latch → t.replyPending = false →
      PltStream o [] t → Q () t)
    (hE : ∀ sw t, E (.statusWord sw) t) (hfault : ¬ ExactTexts → ∀ t, E .fault t) :
    wp (handleSignPlt cmd true) Q E s := by
  unfold handleSignPlt
  rw [if_pos rfl, wp_bind, wp_modifyCtx, hz]
  refine wp_if (fun _ => wp_pltInit rfl hrefused hopen hE hfault) fun _ => wp_if (fun _ => ?_)
    fun _ => wp_pltRefuse hrefused
  unfold pltCont
  rw [wp_bind, wp_getCtx]
  refine wp_if (fun _ => wp_pltRefuse hrefused) fun hstate => absurd ?_ hstate
  rw [InstructionContext.view_inject]
  exact PltState.noConfusion

/-- What becomes of a packet behind the first one, in a stream of which `got`
    has arrived. -/
inductive PltOutcome (o : PltOpening first) (got : Bytes) (cmd : Command) (s t : World) :
    Prop where
  /-- The dispatcher passes no empty packet on but a continuation. -/
  | empty (hempty : cmd.data = []) (hp1 : cmd.p1 ≠ pltP1Cont)
    (ht : t = s.answered [] swoWrongDataLength)
  | more (hc : PltContinues o.total got cmd) (hmore : got.length + cmd.data.length < o.total)
    (hl : t.latch = s.latch) (hp : t.replyPending = false)
    (h : PltStream o (got ++ cmd.data) t)
  | reviewed (hc : PltContinues o.total got cmd) (hdone : got.length + cmd.data.length = o.total)
    (hl : t.latch = s.latch) (hp : t.replyPending = s.replyPending)
    (h : PltStream o (got ++ cmd.data) t) (hr : PltReviewing o (got ++ cmd.data) t)
  | refused (ht : PltRefused t) (hno : PltContinues o.total got cmd →
      got.length + cmd.data.length = o.total ∧ PltUnreviewable o (got ++ cmd.data))

theorem dispatch_plt {isInitialCall : Bool} (hins : cmd.ins = insSignPlt) :
    dispatchInstruction cmd isInitialCall =
      if cmd.lc = 0 ∧ cmd.p1 ≠ pltP1Cont then ioSendSw swoWrongDataLength
      else handleSignPlt cmd isInitialCall := by
  unfold dispatchInstruction
  rw [hins]
  rfl

/-- A packet behind the first one. -/
theorem wp_pltNext {got : Bytes} (hins : cmd.ins = insSignPlt) (h : PltStream o got s) :
    wp (dispatchInstruction cmd false) (fun _ t => PltOutcome o got cmd s t)
      (fun e _ => (∃ sw, e = .statusWord sw ∧ got.length + cmd.data.length = o.total ∧
        PltUnreviewable o (got ++ cmd.data)) ∨ ¬ ExactTexts) s := by
  have hrefuse (sw : UInt16) (hno : ¬ PltContinues o.total got cmd)
      {E : Exception → World → Prop} :
      wp (pltRefuse sw) (fun _ t => PltOutcome o got cmd s t) E s :=
    wp_pltRefuse fun t ht => .refused ht fun hc => absurd hc hno
  rw [dispatch_plt hins]
  refine wp_if (fun hempty => ?_) fun _ => ?_
  · rw [ioSendSw, wp_ioSendResponse]
    exact .empty (List.length_eq_zero_iff.mp hempty.1) hempty.2 rfl
  · unfold handleSignPlt
    rw [if_neg Bool.false_ne_true]
    refine wp_if (fun hp1 => ?_) fun hp1 => wp_if (fun hp1' => ?_) fun hp1' => ?_
    · have hno : ¬ PltContinues o.total got cmd := fun hc => by
        have := hp1.symm.trans hc.1
        exact absurd this (by decide)
      unfold pltInit
      rw [wp_bind, wp_getCtx]
      refine wp_if (fun _ => hrefuse _ hno) fun hstate => absurd ?_ hstate
      rw [h.same.state]
      exact PltState.noConfusion
    · refine wp_pltCont h hp1' (fun t ht hno => .refused ht hno)
        (fun g hc hmore hs => .more hc hmore rfl rfl hs)
        (fun t hc hdone hl hp hs hr => .reviewed hc hdone hl hp hs hr)
        (fun sw _ hdone hno => .inl ⟨sw, rfl, hdone, hno⟩) fun hx _ => .inr hx
    · exact hrefuse _ fun hc => hp1' hc.1

end Handler

end Concordium
