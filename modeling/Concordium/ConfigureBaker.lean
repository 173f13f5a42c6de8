/-
  Configure baker, over whole runs.

  Every packet is one stage's; the review behind it is confirmed before the next
  one is taken.  When the user can sign, the flagged fields have all been hashed
  in the order of the protocol, and all have been shown.
-/
import Concordium.BakerStages

namespace Concordium

open Buffer Union Wp Runs

set_option synthInstance.maxSize 1000000
set_option synthInstance.maxHeartbeats 100000

section Baker
variable [Platform] {cmd first : Command} {s t w : World} {Q : Unit → World → Prop}

theorem baker_of {ctx : SignConfigureBaker} (h : w.global = Member.inject ctx) :
    w.baker = ctx := by
  rw [World.baker, h, InstructionContext.view_inject]

/-! ## The first packet -/

/-- The context that a bitmap sets up. -/
def bakerStarted (ctx : SignConfigureBaker) (bitmap : ℕ) : SignConfigureBaker :=
  let ctx := { ctx with firstDisplay := true }.setFlags bitmap
  { ctx with
    keysHashDisplay := Buf.zero 65
    keysHashCtx := if ctx.hasKeys then [] else ctx.keysHashCtx
    state := ctx.stageBehindInitial }

omit [Platform] in
theorem flag_bakerStarted (ctx : SignConfigureBaker) (bitmap : ℕ) (f : BakerField) :
    f.flag (bakerStarted ctx bitmap) = bitmap.testBit f.bit := by
  cases f <;> rfl

/-- The bitmap has selected a stage, or the flow waits for another first packet. -/
theorem bakerAt_started (ctx : SignConfigureBaker)
    (hctx : w.baker = bakerStarted ctx (beNat (bakerBitmap first))) (hs : ctx.state = .initial)
    (hhash : w.txState.hash = bakerHead first) :
    w.baker.state = .initial ∨ ∀ rows, BakerAt first w.baker.state rows w := by
  have hinitial := before_stageBehindInitial
    ({ ctx with firstDisplay := true }.setFlags (beNat (bakerBitmap first))) hs
  have hstate : w.baker.state = ({ ctx with firstDisplay := true }.setFlags
      (beNat (bakerBitmap first))).stageBehindInitial := by
    rw [hctx]
    rfl
  rw [hstate]
  refine hinitial.imp id ?_
  rintro ⟨⟨fields, hfields, hnone⟩, hsuspended⟩ rows
  refine .fields hfields (fun _ hkeys => ?_) (fun hs => ?_) ⟨fun f => ?_, [], ?_, ?_⟩
  · rw [hctx] at hkeys ⊢
    exact if_pos hkeys
  · rw [hctx]
    exact hsuspended hs
  · rw [hctx, flag_bakerStarted]
  · have hsame : flagged w.baker fields = flagged ({ ctx with firstDisplay := true }.setFlags
        (beNat (bakerBitmap first))) fields := by
      refine List.filter_congr fun f _ => ?_
      rw [hctx, flag_bakerStarted, BakerField.flag_setFlags]
    rw [hsame, hnone]
    exact .nil
  · rw [hhash, List.append_nil, List.append_nil]

/-- The first packet: the bitmap selects the stage to go on with, if any. -/
theorem wp_bakerInitial (hs : s.baker.state = .initial)
    (hQ : ∀ t, t.replyPending = false → t.baker.firstDisplay = true →
      HeaderShown t.accountSender (transactionHeader cmd) →
      (t.baker.state = .initial ∨ ∀ rows, BakerAt cmd t.baker.state rows t) → Q () t) :
    wp (bakerInitial cmd) Q (fun _ _ => True) s := by
  unfold bakerInitial
  rw [wp_bind, wp_sha256Init, wp_bind]
  refine wp_parseDerivationPath (fun _ _ => trivial) fun dp log hdepth => ?_
  rw [wp_bind, wp_throwIf]
  refine ⟨fun _ => trivial, fun _ => ?_⟩
  rw [wp_bind, wp_advance]
  refine ⟨fun _ => ?_, fun _ => trivial⟩
  change wp (hashAccountTransactionHeaderAndKind (transactionBody cmd) kindConfigureBaker >>= _)
    _ _ _
  rw [wp_bind]
  refine wp_hashAccountTransactionHeaderAndKind (fun _ _ => trivial) (fun _ _ => trivial)
    fun account log' hlength hheader _ _ => ?_
  rw [wp_bind, wp_throwIf]
  refine ⟨fun _ => trivial, fun _ => ?_⟩
  rw [wp_bind, wp_advance]
  refine ⟨fun _ => ?_, fun _ => trivial⟩
  rw [wp_bind, wp_throwIf]
  refine ⟨fun _ => trivial, fun _ => ?_⟩
  rw [wp_bind, wp_slice]
  refine ⟨fun _ => ?_, fun _ => trivial⟩
  rw [wp_bind, wp_updateHash, wp_bind, wp_u2be]
  refine ⟨fun _ => ?_, fun _ => trivial⟩
  rw [wp_bind, wp_throwIf]
  refine ⟨fun _ => trivial, fun _ => ?_⟩
  rw [wp_bind, wp_modifyCtx]
  change wp (ioSendResponse [] swoSuccess) _ _ _
  rw [wp_ioSendResponse]
  refine hQ _ rfl ?_ hheader (bakerAt_started s.baker ?_ hs rfl)
  · rw [baker_of rfl]
    rfl
  · rw [baker_of rfl]
    rfl

/-! ## The first batch -/

/-- The sender has been shown, or the next review shows it. -/
def SenderReady (first : Command) (w : World) : Prop :=
  HeaderShown w.accountSender (transactionHeader first) ∨ SenderShown first (accepted w.log)

/-- The context has been written, and nothing else. -/
structure BakerSet (ctx : SignConfigureBaker) (s u : World) : Prop where
  baker : u.baker = ctx
  txState : u.txState = s.txState
  replyPending : u.replyPending = s.replyPending
  log : u.log = s.log
  accountSender : u.accountSender = s.accountSender

theorem wp_setBaker {ctx : SignConfigureBaker} {E : Exception → World → Prop}
    (h : ∀ u, BakerSet ctx s u → Q () u) : wp (setCtx ctx) Q E s := by
  rw [wp_setCtx]
  exact h _ ⟨baker_of rfl, rfl, rfl, rfl, rfl⟩

theorem wp_takeFirstDisplay {Q : Bool → World → Prop} {E : Exception → World → Prop}
    (h : ∀ u, BakerSet { s.baker with firstDisplay := false } s u →
      Q s.baker.firstDisplay u) : wp takeFirstDisplay Q E s := by
  unfold takeFirstDisplay
  rw [wp_bind, wp_getCtx, wp_bind]
  exact wp_setBaker h

theorem BakerSet.latch {ctx : SignConfigureBaker} {u : World} (h : BakerSet ctx s u) :
    u.latch = s.latch := congrArg TxState.currentInstruction h.txState

/-- A packet has been acknowledged. -/
structure BakerReplied (s u : World) : Prop where
  baker : u.baker = s.baker
  txState : u.txState = s.txState
  replyPending : u.replyPending = false
  accepted : accepted u.log = accepted s.log
  accountSender : u.accountSender = s.accountSender

theorem wp_bakerReplied {E : Exception → World → Prop} (h : ∀ u, BakerReplied s u → Q () u) :
    wp sendSuccessNoIdle Q E s := by
  change wp (ioSendResponse [] swoSuccess) _ _ _
  rw [wp_ioSendResponse]
  exact h _ ⟨rfl, rfl, rfl, by simp [Event.accepts], rfl⟩

omit [Platform] in
theorem flag_firstDisplay (ctx : SignConfigureBaker) (f : BakerField) :
    f.flag { ctx with firstDisplay := false } = f.flag ctx := by
  cases f <;> rfl

omit [Platform] in
theorem flag_awaitConfirm (ctx : SignConfigureBaker) (next : ConfigureBakerState)
    (f : BakerField) : f.flag (ctx.awaitConfirm next) = f.flag ctx := by
  cases f <;> rfl

/-- The review of the first batch and the keys. -/
theorem wp_startConfigureBakerDisplay (first : Command) (bs tail : Bytes)
    {E : Exception → World → Prop}
    (hstate : s.baker.state = .awaitingConfirm)
    (hnext : s.baker.pendingState = s.baker.stageBehindFirst)
    (hflags : ∀ f : BakerField, f.flag s.baker = (beNat (bakerBitmap first)).testBit f.bit)
    (hbatch : FieldsShown (batchRows s.baker) (flagged s.baker BakerField.batch) bs)
    (hkeys : FieldsShown [row "Baker keys hash" s.baker.keysHashDisplay.text]
      (flagged s.baker [.keys]) tail)
    (hhash : s.txState.hash = bakerHead first ++ (bs ++ tail)) (hsender : SenderReady first s)
    (hQ : ∀ t, t.latch = s.latch → t.replyPending = s.replyPending → BakerReviewing first t →
      Q () t) :
    wp startConfigureBakerDisplay Q E s := by
  unfold startConfigureBakerDisplay
  rw [wp_bind]
  refine wp_takeFirstDisplay fun u hu => ?_
  rw [wp_bind, wp_getCtx]
  change wp (bakerReview (batchRows u.baker ++ (if u.baker.hasKeys then
    [line "Update baker" "keys", row "Baker keys hash" u.baker.keysHashDisplay.text] else [])) true
    (u.baker.hasMetadataUrl || u.baker.hasCommissionRate || u.baker.hasSuspended)) _ _ _
  have hflag (f : BakerField) : f.flag u.baker = f.flag s.baker := by
    rw [hu.baker, flag_firstDisplay]
  have hrows : batchRows u.baker = batchRows s.baker := by
    rw [hu.baker]
    rfl
  have hdisplay : u.baker.keysHashDisplay = s.baker.keysHashDisplay := by rw [hu.baker]
  have hbehind : u.baker.pendingState = u.baker.stageBehindFirst := by
    rw [hu.baker]
    exact hnext
  refine wp_bakerReview_stage ?_ ?_ (fun shown hshown => ?_) ?_ fun t hl hp ht =>
    hQ t (hl.trans hu.latch) (hp.trans hu.replyPending) ht
  · rw [hu.baker, hstate]
  · rw [hbehind]
    exact more_behindFirst u.baker
  · have hsub : shown.Sublist (accepted u.log ++ shown) := List.sublist_append_right _ _
    rw [hbehind]
    refine .behind ⟨fun f => (hflag f).trans (hflags f), bs ++ tail, ?_, ?_⟩
      (behind_first u.baker)
    · rw [flagged_congr hflag, flagged_append]
      refine (hbatch.mono ?_).append ?_
      · rw [← hrows]
        exact ((List.sublist_append_left _ _).trans hshown).trans hsub
      · rw [flagged_singleton] at hkeys ⊢
        cases hk : s.baker.hasKeys with
        | true =>
          have hk' : u.baker.hasKeys = true := (hflag .keys).trans hk
          rw [if_pos hk'] at hshown
          refine hkeys.mono (List.Sublist.trans ?_ (hshown.trans hsub))
          rw [← hdisplay]
          exact (List.sublist_cons_self _ _).trans (List.sublist_append_right _ _)
        | false =>
          rw [if_neg (by rw [BakerField.flag, hk]; exact Bool.false_ne_true)] at hkeys ⊢
          cases hkeys
          exact .nil
    · rw [hu.txState, hhash, List.append_nil]
  · rcases hsender with hheader | hshown
    · exact .inl ⟨rfl, by rwa [hu.accountSender]⟩
    · exact .inr (by rwa [hu.log])

theorem SenderReady.still (h : SenderReady first s) (hsender : t.accountSender = s.accountSender)
    (hacc : accepted t.log = accepted s.log) : SenderReady first t := by
  rcases h with h | h
  · exact .inl (by rwa [hsender])
  · exact .inr (by rwa [hacc])

theorem FieldsShown.none_of_flag {ctx : SignConfigureBaker} {f : BakerField}
    {rows : List Row} (h : f.flag ctx = false) : FieldsShown rows (flagged ctx [f]) [] := by
  rw [flagged_none h]
  exact .nil

/-- The first batch: its review, or the wait for the aggregation key. -/
theorem wp_bakerFirst
    (hflags : ∀ f : BakerField, f.flag s.baker = (beNat (bakerBitmap first)).testBit f.bit)
    (hdigest : s.baker.hasKeys = true → s.baker.keysHashCtx = [])
    (hhash : s.txState.hash = bakerHead first) (hsender : SenderReady first s)
    (hkeys : ∀ t, t.replyPending = false → SenderReady first t → BakerKeysRead first t → Q () t)
    (hreview : ∀ t, t.replyPending = s.replyPending → BakerReviewing first t → Q () t) :
    wp (bakerFirst cmd) Q (fun _ _ => True) s := by
  unfold bakerFirst
  rw [wp_bind, wp_getCtx]
  refine wp_bakerBatch fun ctx cdata bs t hsame ht hbatch => ?_
  have hflags' (f : BakerField) : f.flag ctx = (beNat (bakerBitmap first)).testBit f.bit :=
    (hsame.flag f).trans (hflags f)
  have hdigest' : ctx.hasKeys = true → ctx.keysHashCtx = [] := by
    rw [hsame]
    exact hdigest
  refine wp_if (fun hk => ?_) fun hk => ?_
  · unfold bakerKeys
    simp only [bind_assoc]
    rw [wp_bind, wp_throwIf]
    refine ⟨fun _ => trivial, fun hlen => ?_⟩
    have hlength : cdata.length = 192 := not_not.mp hlen
    rw [wp_bind, wp_slice]
    refine ⟨fun _ => ?_, fun _ => trivial⟩
    rw [wp_bind]
    refine wp_updateHash_fed fun u₁ hu₁ => ?_
    rw [wp_bind, wp_slice]
    refine ⟨fun _ => ?_, fun _ => trivial⟩
    rw [wp_bind]
    refine wp_updateHash_fed fun u₂ hu₂ => ?_
    rw [wp_bind, wp_slice]
    refine ⟨fun _ => ?_, fun _ => trivial⟩
    rw [wp_bind]
    refine wp_updateHash_fed fun u₃ hu₃ => ?_
    rw [wp_bind, wp_slice]
    refine ⟨fun _ => ?_, fun _ => trivial⟩
    rw [wp_bind]
    refine wp_updateHash_fed fun u₄ hu₄ => ?_
    rw [pure_bind, wp_bind]
    refine wp_setBaker fun v hv => wp_bakerReplied fun w hw => ?_
    have hall := (((ht.trans hu₁).trans hu₂).trans hu₃).trans hu₄
    have hpart : cdata.take 32 ++ (cdata.drop 32).take 64 ++ (cdata.drop 96).take 32 ++
        (cdata.drop 128).take 64 = cdata := by
      rw [← List.take_add, ← List.take_add, ← List.take_add, List.take_of_length_le hlength.le]
    have hbaker : w.baker = _ := hw.baker.trans hv.baker
    refine hkeys w hw.replyPending (hsender.still ?_ ?_)
      ⟨?_, ?_, cdata, hlength, ?_, ?_, bs, ?_, ?_⟩
    · rw [hw.accountSender, hv.accountSender, hall.sender]
    · rw [hw.accepted, hv.log, hall.accepted]
    · rw [hbaker]
    · rw [hbaker]
      exact hk
    · rw [hbaker, List.drop_zero]
      dsimp only
      rw [hdigest' hk, List.nil_append]
    · intro f
      rw [hbaker, ← hflags' f]
      cases f <;> rfl
    · rw [hbaker]
      exact hbatch
    · rw [hw.txState, hv.txState, hall.hash, hhash, List.drop_zero]
      nth_rewrite 5 [← hpart]
      simp only [List.append_assoc]
  · have hk' : ctx.hasKeys = false := Bool.not_eq_true _ ▸ hk
    rw [wp_bind, wp_throwIf]
    refine ⟨fun _ => trivial, fun _ => ?_⟩
    rw [wp_bind]
    refine wp_setBaker fun v hv =>
      wp_startConfigureBakerDisplay first bs [] ?_ ?_ ?_ ?_ ?_ ?_ ?_ ?_
    · rw [hv.baker]
      rfl
    · rw [hv.baker]
      rfl
    · intro f
      rw [hv.baker, flag_awaitConfirm, hflags']
    · rw [hv.baker, flagged_congr (flag_awaitConfirm ctx _)]
      exact hbatch
    · refine .none_of_flag ?_
      rw [hv.baker]
      exact hk'
    · rw [hv.txState, ht.hash, hhash, List.append_nil]
    · refine hsender.still ?_ ?_
      · rw [hv.accountSender, ht.sender]
      · rw [hv.log, ht.accepted]
    · intro t' hl hp ht'
      exact hreview t' (hp.trans (hv.replyPending.trans ht.reply)) ht'

/-- The aggregation key: the digest of the three keys is reviewed with the batch. -/
theorem wp_bakerAggregationKey (h : BakerKeysRead first s) (hsender : SenderReady first s)
    (hreview : ∀ t, t.replyPending = s.replyPending → BakerReviewing first t → Q () t) :
    wp (bakerAggregationKey cmd) Q (fun _ _ => True) s := by
  obtain ⟨part, hpart, hdigest, hread⟩ := h.keys
  obtain ⟨bs, hbatch, hhash⟩ := hread.hashed
  unfold bakerAggregationKey
  rw [wp_bind, wp_getCtx, wp_bind, wp_throwIf]
  refine ⟨fun _ => trivial, fun hlen => ?_⟩
  have hlength : cmd.data.length = 160 := by
    by_contra hne
    exact hlen (.inr hne)
  rw [wp_bind, wp_slice]
  refine ⟨fun _ => ?_, fun _ => trivial⟩
  rw [wp_bind]
  refine wp_updateHash_fed fun u₁ hu₁ => ?_
  rw [wp_bind, wp_slice]
  refine ⟨fun _ => ?_, fun _ => trivial⟩
  rw [wp_bind]
  refine wp_updateHash_fed fun u₂ hu₂ => ?_
  rw [wp_bind]
  refine wp_formatHexInto (by rw [Buf.size]) fun keysHashDisplay hdisplay => ?_
  have hall := hu₁.trans hu₂
  have hkey : (cmd.data.drop 0).take 96 ++ (cmd.data.drop 96).take 64 = cmd.data := by
    rw [List.drop_zero, ← List.take_add, List.take_of_length_le hlength.le]
  rw [hkey] at hall
  have hkeys : BakerField.keys.Shown (part ++ cmd.data)
      [row "Baker keys hash" keysHashDisplay.text] := by
    refine ⟨?_, ?_⟩
    · rw [List.length_append, hpart, hlength]
    · have hverification : verificationKeys (part ++ cmd.data) =
          s.baker.keysHashCtx ++ (cmd.data.drop 0).take 96 := by
        have h32 : (part ++ cmd.data).take 32 = part.take 32 :=
          List.take_append_of_le_length (by omega)
        have h96 : ((part ++ cmd.data).drop 96).take 32 = (part.drop 96).take 32 := by
          rw [List.drop_append_of_le_length (by omega), List.take_append_of_le_length]
          rw [List.length_drop]
          omega
        have h192 : (part ++ cmd.data).drop 192 = cmd.data := List.drop_left' hpart
        rw [verificationKeys, h32, h96, h192, hdigest, List.drop_zero]
      rw [hverification]
      change _ ∈ [row "Baker keys hash" keysHashDisplay.text]
      rw [hdisplay]
      exact List.mem_singleton.mpr rfl
  rw [wp_bind]
  refine wp_setBaker fun v hv => wp_startConfigureBakerDisplay first bs (part ++ cmd.data)
    ?_ ?_ ?_ ?_ ?_ ?_ ?_ ?_
  · rw [hv.baker]
    rfl
  · rw [hv.baker]
    rfl
  · intro f
    rw [hv.baker, flag_awaitConfirm, ← hread.flags]
    cases f <;> rfl
  · rw [hv.baker]
    exact hbatch
  · have hflag : BakerField.keys.flag v.baker = true := by
      rw [hv.baker]
      exact h.hasKeys
    refine .optional ?_
    rw [if_pos hflag, hv.baker]
    exact hkeys
  · rw [hv.txState, hall.hash, hhash]
    simp only [List.append_assoc]
  · refine hsender.still ?_ ?_
    · rw [hv.accountSender, hall.sender]
    · rw [hv.log, hall.accepted]
  · intro t' hl hp ht'
    exact hreview t' (hp.trans (hv.replyPending.trans hall.reply)) ht'

/-! ## The later stages -/

/-- The review of a stage behind the first batch. -/
theorem wp_laterReview {rows : SignConfigureBaker → List Row} {more : SignConfigureBaker → Bool}
    {E : Exception → World → Prop} (hstate : s.baker.state = .awaitingConfirm)
    (hmore : more { s.baker with firstDisplay := false } = true ↔ s.baker.pendingState ≠ .end)
    (hread : ∀ shown, (rows { s.baker with firstDisplay := false }).Sublist shown →
      BakerAt first s.baker.pendingState (accepted s.log ++ shown) s)
    (hsender : SenderFront first s)
    (hQ : ∀ t, t.replyPending = s.replyPending → BakerReviewing first t → Q () t) :
    wp (takeFirstDisplay >>= fun front => getCtx SignConfigureBaker >>= fun ctx =>
      bakerReview (rows ctx) front (more ctx)) Q E s := by
  rw [wp_bind]
  refine wp_takeFirstDisplay fun u hu => ?_
  rw [wp_bind, wp_getCtx]
  change wp (bakerReview (rows u.baker) s.baker.firstDisplay (more u.baker)) _ _ _
  have hpending : u.baker.pendingState = s.baker.pendingState := by rw [hu.baker]
  refine wp_bakerReview_stage ?_ ?_ (fun shown hshown => ?_) ?_ fun t _ hp ht =>
    hQ t (hp.trans hu.replyPending) ht
  · rw [hu.baker, hstate]
  · rw [hpending, hu.baker, hmore]
  · rw [hpending, hu.log]
    rw [hu.baker] at hshown
    refine (hread shown hshown).of_kept ⟨fun f => ?_, ?_, ?_⟩ (by rw [hu.txState])
    · rw [hu.baker, flag_firstDisplay]
    · rw [hu.baker]
      rfl
    · rw [hu.baker]
  · rcases hsender with ⟨hf, hheader⟩ | hshown
    · exact .inl ⟨hf, by rwa [hu.accountSender]⟩
    · exact .inr (by rwa [hu.log])

theorem SenderFront.of_baker (h : SenderFront first s)
    (hfirst : t.baker.firstDisplay = s.baker.firstDisplay)
    (hsender : t.accountSender = s.accountSender) (hacc : accepted t.log = accepted s.log) :
    SenderFront first t := by
  rcases h with ⟨hf, hheader⟩ | h
  · exact .inl ⟨hfirst.trans hf, by rwa [hsender]⟩
  · exact .inr (by rwa [hacc])

theorem url_setUrl (ctx : SignConfigureBaker) (url : ConfigureBakerUrl) :
    (ctx.setUrl url).url = url := ConfigureBakerDisplay.view_inject url

omit [Platform] in
theorem flag_setUrl (ctx : SignConfigureBaker) (url : ConfigureBakerUrl)
    (f : BakerField) : f.flag (ctx.setUrl url) = f.flag ctx := by
  cases f <;> rfl

/-- The row of a page of the URL. -/
def urlRow (lastUrlPage : Bool) (ctx : SignConfigureBaker) : Row :=
  if lastUrlPage && ctx.url.urlLength == 0 then line "Empty URL" ""
  else row "URL" ctx.url.urlDisplay.text

theorem wp_startConfigureBakerUrlDisplay {lastUrlPage : Bool} {E : Exception → World → Prop}
    (hstate : s.baker.state = .awaitingConfirm)
    (hmore : (!lastUrlPage || s.baker.hasCommissionRate || s.baker.hasSuspended) = true ↔
      s.baker.pendingState ≠ .end)
    (hread : ∀ shown, [urlRow lastUrlPage s.baker].Sublist shown →
      BakerAt first s.baker.pendingState (accepted s.log ++ shown) s)
    (hsender : SenderFront first s)
    (hQ : ∀ t, t.replyPending = s.replyPending → BakerReviewing first t → Q () t) :
    wp (startConfigureBakerUrlDisplay lastUrlPage) Q E s := by
  change wp (takeFirstDisplay >>= fun front => getCtx SignConfigureBaker >>= fun ctx =>
    bakerReview [urlRow lastUrlPage ctx] front
      (!lastUrlPage || ctx.hasCommissionRate || ctx.hasSuspended)) _ _ _
  exact wp_laterReview hstate hmore hread hsender hQ

/-- The URL is complete, and its pages are shown. -/
theorem urlComplete {count : Bytes} (pages : List Bytes) {rows : List Row}
    (h : BakerRead first (BakerField.batch ++ [.keys]) (count ++ pages.flatten) rows w)
    (hflag : w.baker.hasMetadataUrl = true) (hnext : w.baker.pendingState = w.baker.stageBehindUrl)
    (hcount : count.length = 2) (hlen : beNat count = pages.flatten.length)
    (hpages : (pages.map (row "URL")).Sublist rows)
    (hempty : pages = [] → line "Empty URL" "" ∈ rows) :
    BakerAt first w.baker.pendingState rows w := by
  have hselected : BakerField.metadataUrl.flag w.baker = true := hflag
  rw [hnext]
  refine .behind (h.next (.optional ?_)) (behind_url _)
  rw [if_pos hselected]
  exact ⟨count, pages, rfl, hcount, hlen, hpages, hempty⟩

/-- The length of the URL: an empty one is reviewed at once. -/
theorem wp_bakerUrlLength
    (h : BakerRead first (BakerField.batch ++ [.keys]) [] (accepted s.log) s)
    (hsender : SenderFront first s)
    (hmore : ∀ t, t.replyPending = false → SenderFront first t →
      BakerAt first t.baker.state (accepted t.log) t → Q () t)
    (hreview : ∀ t, t.replyPending = s.replyPending → BakerReviewing first t → Q () t) :
    wp (bakerUrlLength cmd) Q (fun _ _ => True) s := by
  unfold bakerUrlLength
  rw [wp_bind, wp_getCtx, wp_bind, wp_throwIf]
  refine ⟨fun _ => trivial, fun hflag => ?_⟩
  have hurl : s.baker.hasMetadataUrl = true := by
    change ¬ (!s.baker.hasMetadataUrl) = true at hflag
    simpa using hflag
  rw [wp_bind, wp_throwIf]
  refine ⟨fun _ => trivial, fun hlen => ?_⟩
  rw [wp_bind, wp_u2be]
  refine ⟨fun _ => ?_, fun _ => trivial⟩
  rw [wp_bind, wp_throwIf]
  refine ⟨fun _ => trivial, fun _ => ?_⟩
  rw [wp_bind, wp_slice]
  refine ⟨fun _ => ?_, fun _ => trivial⟩
  rw [wp_bind]
  refine wp_updateHash_fed fun u hu => ?_
  have hcount : ((cmd.data.drop 0).take 2).length = 2 := by
    rw [List.drop_zero, List.length_take]
    omega
  generalize (cmd.data.drop 0).take 2 = count at hu hcount
  -- Nothing of the URL has arrived.
  have hread {v : World} (hflags : ∀ f : BakerField, f.flag v.baker = f.flag s.baker)
      (hhash : v.txState = u.txState) : BakerRead first (BakerField.batch ++ [.keys])
        (count ++ ([] : List Bytes).flatten) (accepted s.log) v := by
    rw [List.flatten_nil, List.append_nil, ← List.nil_append count]
    exact h.feed hflags (by rw [hhash, hu.hash])
  refine wp_if (fun hzero => ?_) fun hpos => ?_
  · rw [wp_bind]
    refine wp_setBaker fun v hv => ?_
    have hflags (f : BakerField) : f.flag v.baker = f.flag s.baker := by
      rw [hv.baker, flag_awaitConfirm, flag_setUrl]
      rfl
    have hlog : accepted v.log = accepted s.log := by rw [hv.log, hu.accepted]
    have hbehind : v.baker.pendingState = v.baker.stageBehindUrl := by
      rw [hv.baker]
      rfl
    refine wp_startConfigureBakerUrlDisplay ?_ ?_ (fun shown hsub => ?_)
      (hsender.of_baker ?_ ?_ hlog) fun t hp ht =>
        hreview t (hp.trans (hv.replyPending.trans hu.reply)) ht
    · rw [hv.baker]
      rfl
    · rw [hbehind]
      exact more_behindUrl v.baker
    · refine urlComplete [] ((hread hflags hv.txState).mono ?_)
        ((hflags .metadataUrl).trans hurl) hbehind hcount (by rw [hzero]; rfl) (List.nil_sublist _)
        fun _ => ?_
      · rw [hlog]
        exact List.sublist_append_left _ _
      · refine List.mem_append_right _ (hsub.subset ?_)
        have hleft : v.baker.url.urlLength = 0 := by
          rw [hv.baker]
          exact (congrArg ConfigureBakerUrl.urlLength (url_setUrl s.baker _)).trans hzero
        simp [urlRow, hleft]
    · rw [hv.baker]
      rfl
    · rw [hv.accountSender, hu.sender]
  · rw [wp_bind]
    refine wp_setBaker fun v hv => wp_bakerReplied fun w hw => ?_
    have hbaker : w.baker = _ := hw.baker.trans hv.baker
    have hflags (f : BakerField) : f.flag w.baker = f.flag s.baker := by
      rw [hbaker]
      cases f <;> rfl
    have hlog : accepted w.log = accepted s.log := by rw [hw.accepted, hv.log, hu.accepted]
    have hleft : w.baker.url.urlLength = beNat count := by
      rw [hbaker]
      exact congrArg ConfigureBakerUrl.urlLength (url_setUrl s.baker _)
    refine hmore w hw.replyPending (hsender.of_baker ?_ ?_ hlog)
      (.url ?_ ((hflags .metadataUrl).trans hurl) hcount ?_ ?_
        (show (([] : List Bytes).map (row "URL")).Sublist _ from List.nil_sublist _) ?_)
    · rw [hbaker]
      rfl
    · rw [hw.accountSender, hv.accountSender, hu.sender]
    · rw [hbaker]
    · rw [hleft]
      exact (Nat.zero_add _).symm
    · rw [hleft]
      exact Nat.pos_of_ne_zero hpos
    · rw [hlog]
      exact hread hflags (hw.txState.trans hv.txState)

omit [Platform] in
theorem wp_urlPage {page : Bytes} {Q : Buf 256 → World → Prop} {E : Exception → World → Prop}
    (hclean : isDisplayableText page = true) (hlen : page.length ≤ 255)
    (h : ∀ display : Buf 256, display.text = page → Q display s) : wp (urlPage page) Q E s := by
  unfold urlPage
  rw [wp_memmove]
  refine ⟨fun hw => h _ (Buf.text_write hw fun h0 => ?_), fun hw => absurd ?_ hw⟩
  · obtain ⟨hpos, -⟩ := (isDisplayableText_iff page).mp hclean 0 h0
    exact absurd hpos (by decide)
  · rw [List.length_append, List.length_singleton]
    omega

/-- A page of the URL: it is reviewed, and the last one completes the field. -/
theorem wp_bakerUrl {count : Bytes} {pages : List Bytes}
    (h : BakerRead first (BakerField.batch ++ [.keys]) (count ++ pages.flatten) (accepted s.log) s)
    (hurl : s.baker.hasMetadataUrl = true) (hcount : count.length = 2)
    (left : beNat count = pages.flatten.length + s.baker.url.urlLength)
    (hpages : (pages.map (row "URL")).Sublist (accepted s.log)) (hsender : SenderFront first s)
    (hne : cmd.data ≠ [])
    (hreview : ∀ t, t.replyPending = s.replyPending → BakerReviewing first t → Q () t)
    (hfree : ∀ t, t.latch = none → Q () t) :
    wp (bakerUrl cmd) Q (fun _ _ => True) s := by
  have hshort : cmd.data.length ≤ 255 := cmd.lc_le
  have hpages' : (pages ++ [cmd.data]).map (row "URL") = pages.map (row "URL") ++
      [row "URL" cmd.data] := by
    rw [List.map_append, List.map_singleton]
  have hflatten : (pages ++ [cmd.data]).flatten = pages.flatten ++ cmd.data := by
    rw [List.flatten_append, List.flatten_singleton]
  have hread {u v : World} {rows : List Row}
      (hflags : ∀ f : BakerField, f.flag v.baker = f.flag s.baker) (hu : FedOnto cmd.data s u)
      (hhash : v.txState = u.txState) (hsub : (accepted s.log).Sublist rows) :
      BakerRead first (BakerField.batch ++ [.keys]) (count ++ (pages ++ [cmd.data]).flatten) rows
        v := by
    rw [hflatten, ← List.append_assoc]
    exact (h.feed hflags (by rw [hhash, hu.hash])).mono hsub
  unfold bakerUrl
  rw [wp_bind, wp_getCtx]
  refine wp_if (fun hmore : cmd.data.length < s.baker.url.urlLength => ?_) fun _ =>
    wp_if (fun hlast : s.baker.url.urlLength = cmd.data.length => ?_) fun _ => trivial
  · refine wp_if (fun _ => ?_) fun hclean => ?_
    · rw [wp_sendRejection]
      exact hfree _ rfl
    · rw [wp_bind]
      refine wp_updateHash_fed fun u hu => ?_
      rw [wp_bind]
      refine wp_urlPage (by simpa using hclean) hshort fun display htext => ?_
      rw [wp_bind]
      refine wp_setBaker fun v hv => ?_
      have hflags (f : BakerField) : f.flag v.baker = f.flag s.baker := by
        rw [hv.baker, flag_awaitConfirm, flag_setUrl]
        rfl
      have hlog : accepted v.log = accepted s.log := by rw [hv.log, hu.accepted]
      have hpending : v.baker.pendingState = .url := by rw [hv.baker]; rfl
      have hdisplay : v.baker.url = ⟨s.baker.url.urlLength - cmd.data.length, display⟩ := by
        rw [hv.baker]
        exact url_setUrl s.baker _
      refine wp_startConfigureBakerUrlDisplay ?_ ?_ (fun shown hsub => ?_)
        (hsender.of_baker ?_ ?_ hlog) fun t hp ht =>
          hreview t (hp.trans (hv.replyPending.trans hu.reply)) ht
      · rw [hv.baker]
        rfl
      · rw [hpending]
        simp
      · rw [hlog]
        refine .url hpending ((hflags .metadataUrl).trans hurl) hcount ?_ ?_ ?_
          (hread hflags hu hv.txState (List.sublist_append_left _ _))
        · rw [hdisplay, hflatten, List.length_append]
          dsimp only
          omega
        · rw [hdisplay]
          dsimp only
          omega
        · rw [hpages']
          refine hpages.append ?_
          rw [urlRow, hdisplay] at hsub
          simpa [htext] using hsub
      · rw [hv.baker]
        rfl
      · rw [hv.accountSender, hu.sender]
  · refine wp_if (fun _ => ?_) fun hclean => ?_
    · rw [wp_sendRejection]
      exact hfree _ rfl
    · rw [wp_bind]
      refine wp_urlPage (by simpa using hclean) hshort fun display htext => ?_
      rw [wp_bind]
      refine wp_updateHash_fed fun u hu => ?_
      rw [wp_bind]
      refine wp_setBaker fun v hv => ?_
      have hflags (f : BakerField) : f.flag v.baker = f.flag s.baker := by
        rw [hv.baker, flag_awaitConfirm, flag_setUrl]
        rfl
      have hlog : accepted v.log = accepted s.log := by rw [hv.log, hu.accepted]
      have hbehind : v.baker.pendingState = v.baker.stageBehindUrl := by
        rw [hv.baker]
        rfl
      have hdisplay : v.baker.url = ⟨s.baker.url.urlLength, display⟩ := by
        rw [hv.baker]
        exact url_setUrl s.baker _
      refine wp_startConfigureBakerUrlDisplay ?_ ?_ (fun shown hsub => ?_)
        (hsender.of_baker ?_ ?_ hlog) fun t hp ht =>
          hreview t (hp.trans (hv.replyPending.trans hu.reply)) ht
      · rw [hv.baker]
        rfl
      · rw [hbehind]
        exact more_behindUrl v.baker
      · rw [hlog]
        refine urlComplete (pages ++ [cmd.data])
          (hread hflags hu hv.txState (List.sublist_append_left _ _))
          ((hflags .metadataUrl).trans hurl) hbehind hcount ?_ ?_ fun hnil => ?_
        · rw [hflatten, List.length_append]
          omega
        · rw [hpages']
          refine hpages.append ?_
          have hpos : 0 < cmd.data.length := List.length_pos_iff.mpr hne
          rw [urlRow, hdisplay] at hsub
          have hzero : (s.baker.url.urlLength == 0) = false := by
            rw [hlast, beq_eq_false_iff_ne]
            omega
          simpa [htext, hzero] using hsub
        · exact absurd hnil (by simp)
      · rw [hv.baker]
        rfl
      · rw [hv.accountSender, hu.sender]

/-! ## Commission rates and suspension -/

theorem wp_percentage {rate : ℕ} {dst : Buf 8} {Q : Buf 8 → World → Prop}
    (h : ∀ dst' : Buf 8, percentageText rate = some dst'.text → Q dst' s) :
    wp (do memmove dst 0 (← fractionToPercentageDisplay 8 rate)) Q (fun _ _ => True) s := by
  rw [wp_bind]
  unfold fractionToPercentageDisplay formatFpu64Tmp
  rw [wp_bind, wp_throwIf]
  refine ⟨fun _ => trivial, fun _ => ?_⟩
  cases ht : Platform.formatFpu64Trimmed fpu64TmpLen rate 3 with
  | none => trivial
  | some t =>
    dsimp only
    rw [wp_bind, wp_pure, wp_bind, wp_throwIf]
    refine ⟨fun _ => trivial, fun _ => ?_⟩
    rw [wp_pure, wp_memmove]
    refine ⟨fun hw => h _ ?_, fun _ => trivial⟩
    rw [percentageText, ht, Option.map_some, Buf.text_write hw fun hm => ?_]
    rcases List.mem_append.mp hm with hm | hm
    · exact zero_not_mem_takeWhile t hm
    · exact absurd hm (by decide)

theorem wp_bakerRate {has : Bool} {text : Buf 8} {cdata : Bytes} {Q : Buf 8 × Bytes → World → Prop}
    (h : ∀ text' rest v t, FedOnto v s t →
      (if has then v.length = 4 ∧ percentageText (beNat v) = some text'.text else v = []) →
      Q (text', rest) t) :
    wp (bakerRate has text cdata) Q (fun _ _ => True) s := by
  unfold bakerRate
  refine wp_if (fun hhas => ?_) fun hhas => ?_
  · rw [wp_bind, wp_throwIf]
    refine ⟨fun _ => trivial, fun hlen => ?_⟩
    rw [wp_bind, wp_u4be]
    refine ⟨fun _ => ?_, fun _ => trivial⟩
    rw [← bind_assoc, wp_bind]
    refine wp_percentage fun text' htext => ?_
    rw [wp_bind, wp_slice]
    refine ⟨fun _ => ?_, fun _ => trivial⟩
    rw [wp_bind]
    refine wp_updateHash_fed fun t ht => ?_
    rw [wp_bind, wp_advance]
    refine ⟨fun _ => ?_, fun _ => trivial⟩
    refine h text' _ _ t ht ?_
    rw [if_pos hhas]
    exact ⟨List.length_take_of_le (not_lt.mp hlen), htext⟩
  · rw [wp_pure]
    exact h text cdata [] s ⟨⟨rfl, rfl, rfl, (List.append_nil _).symm, rfl⟩, rfl⟩
      (by rw [if_neg hhas])

theorem rates_setRates (ctx : SignConfigureBaker) (rates : ConfigureBakerCommisionRates) :
    (ctx.setRates rates).rates = rates := ConfigureBakerDisplay.view_inject rates

/-- The row of a commission rate. -/
def rateRow (item : String) (text : ConfigureBakerCommisionRates → Buf 8)
    (ctx : SignConfigureBaker) : Row :=
  row item (text ctx.rates).text

/-- The rows of the commission rates. -/
def commissionRows (ctx : SignConfigureBaker) : List Row :=
  (if ctx.hasCommissionRate then [line "Commission" "rates"] else []) ++
    optionalRow .transactionFeeCommission
      (rateRow "Transaction fee" (·.transactionFeeCommissionRate)) ctx ++
    optionalRow .bakingRewardCommission
      (rateRow "Baking reward" (·.bakingRewardCommissionRate)) ctx ++
    optionalRow .finalizationRewardCommission
      (rateRow "Finalization reward" (·.finalizationRewardCommissionRate)) ctx

theorem rate_shown {ctx : SignConfigureBaker} {v : Bytes} {rows : List Row} (f : BakerField)
    (item : String) (text : ConfigureBakerCommisionRates → Buf 8)
    (hf : ∀ v rows, RateShown item v rows → f.Shown v rows)
    (h : if f.flag ctx then v.length = 4 ∧ percentageText (beNat v) = some (text ctx.rates).text
      else v = [])
    (hsub : (optionalRow f (rateRow item text) ctx).Sublist rows) :
    FieldsShown rows (flagged ctx [f]) v := by
  refine .optional ?_
  unfold optionalRow at hsub
  split_ifs at h hsub ⊢ with hflag
  · exact hf _ _ ⟨h.1, _, h.2, hsub.subset (List.mem_singleton.mpr rfl)⟩
  · exact h

/-- The commission rates. -/
theorem wp_handleCommissionRates {cdata : Bytes}
    (h : BakerRead first (BakerField.batch ++ [.keys] ++ [.metadataUrl]) [] (accepted s.log) s)
    (hsender : SenderFront first s)
    (hreview : ∀ t, t.replyPending = s.replyPending → BakerReviewing first t → Q () t) :
    wp (handleCommissionRates cdata) Q (fun _ _ => True) s := by
  unfold handleCommissionRates
  rw [wp_bind, wp_getCtx, wp_bind]
  refine wp_bakerRate fun text₁ cdata₁ v₁ t₁ ht₁ hv₁ => ?_
  rw [wp_bind]
  refine wp_bakerRate fun text₂ cdata₂ v₂ t₂ ht₂ hv₂ => ?_
  rw [wp_bind]
  refine wp_bakerRate fun text₃ cdata₃ v₃ t₃ ht₃ hv₃ => ?_
  rw [wp_bind, wp_throwIf]
  refine ⟨fun _ => trivial, fun _ => ?_⟩
  rw [wp_bind]
  refine wp_setBaker fun v hv => ?_
  have hall := (ht₁.trans ht₂).trans ht₃
  have hflags (f : BakerField) : f.flag v.baker = f.flag s.baker := by
    rw [hv.baker]
    cases f <;> rfl
  have hlog : accepted v.log = accepted s.log := by rw [hv.log, hall.accepted]
  have hbehind : v.baker.pendingState = v.baker.stageBehindRates := by
    rw [hv.baker]
    rfl
  have hrates : v.baker.rates = ⟨text₁, text₂, text₃⟩ := by
    rw [hv.baker]
    exact rates_setRates s.baker _
  change wp (takeFirstDisplay >>= fun front => getCtx SignConfigureBaker >>= fun ctx =>
    bakerReview (commissionRows ctx) front ctx.hasSuspended) _ _ _
  refine wp_laterReview ?_ ?_ (fun shown hsub => ?_) (hsender.of_baker ?_ ?_ hlog) fun t hp ht =>
    hreview t (hp.trans (hv.replyPending.trans hall.reply)) ht
  · rw [hv.baker]
    rfl
  · rw [hbehind]
    exact more_behindRates v.baker
  · change (commissionRows v.baker).Sublist shown at hsub
    rw [hlog, hbehind]
    refine .behind ?_ (behind_rates _)
    have hread : BakerRead first (BakerField.batch ++ [.keys] ++ [.metadataUrl])
        ([] ++ (v₁ ++ v₂ ++ v₃)) (accepted s.log ++ shown) v :=
      (h.feed hflags (by rw [hv.txState, hall.hash])).mono (List.sublist_append_left _ _)
    rw [List.nil_append] at hread
    refine hread.next ?_
    have hsub' := hsub.trans (List.sublist_append_right (accepted s.log) shown)
    have hfields : BakerField.rates = [.transactionFeeCommission] ++ [.bakingRewardCommission] ++
        [.finalizationRewardCommission] := rfl
    have hread (f : BakerField) (v' : Bytes) (text : ConfigureBakerCommisionRates → Buf 8)
        (hv' : if f.flag s.baker then v'.length = 4 ∧ percentageText (beNat v') =
          some (text ⟨text₁, text₂, text₃⟩).text else v' = []) :
        if f.flag v.baker then v'.length = 4 ∧ percentageText (beNat v') =
          some (text v.baker.rates).text else v' = [] := by
      rwa [hflags f, hrates]
    rw [hfields, flagged_append, flagged_append]
    refine ((rate_shown .transactionFeeCommission _ _ (fun _ _ h => h)
      (hread _ v₁ (·.transactionFeeCommissionRate) hv₁)
      (List.Sublist.trans ?_ hsub')).append
      (rate_shown .bakingRewardCommission _ _ (fun _ _ h => h)
      (hread _ v₂ (·.bakingRewardCommissionRate) hv₂)
      (List.Sublist.trans ?_ hsub'))).append
      (rate_shown .finalizationRewardCommission _ _ (fun _ _ h => h)
      (hread _ v₃ (·.finalizationRewardCommissionRate) hv₃)
      (List.Sublist.trans ?_ hsub'))
    · exact (List.sublist_append_right _ _).trans
        ((List.sublist_append_left _ _).trans (List.sublist_append_left _ _))
    · exact (List.sublist_append_right _ _).trans (List.sublist_append_left _ _)
    · exact List.sublist_append_right _ _
  · rw [hv.baker]
    rfl
  · rw [hv.accountSender, hall.sender]

theorem suspended_setSuspended (ctx : SignConfigureBaker) (text : Buf 18) :
    (ctx.setSuspended text).suspended = text := ConfigureBakerDisplay.view_inject text

/-- The suspension flag, the last of the fields. -/
theorem wp_bakerSuspended
    (h : BakerRead first (BakerField.batch ++ [.keys] ++ [.metadataUrl] ++ BakerField.rates) []
      (accepted s.log) s)
    (hflag : s.baker.hasSuspended = true) (hsender : SenderFront first s)
    (hreview : ∀ t, t.replyPending = s.replyPending → BakerReviewing first t → Q () t) :
    wp (bakerSuspended cmd) Q (fun _ _ => True) s := by
  unfold bakerSuspended
  rw [wp_bind, wp_getCtx, wp_bind, wp_throwIf]
  refine ⟨fun _ => trivial, fun _ => ?_⟩
  rw [wp_bind, wp_u8]
  refine ⟨fun _ => ?_, fun _ => trivial⟩
  rw [wp_bind]
  refine wp_updateHash_fed fun u hu => ?_
  rw [wp_bind, wp_throwIf]
  refine ⟨fun _ => trivial, fun _ => ?_⟩
  generalize cmd.data.getD 0 0 = suspended at hu ⊢
  have shown (text : Bytes) (h0 : 0 ∉ text)
      (hv : BakerField.suspended.Shown [suspended] [row "Validator status" text]) :
      wp (memmove s.baker.suspended 0 (text ++ [0]) >>= fun text => do
        setCtx ((s.baker.setSuspended text).awaitConfirm .end)
        startConfigureBakerSuspendedDisplay) Q (fun _ _ => True) u := by
    rw [wp_bind, wp_memmove]
    refine ⟨fun hw => ?_, fun _ => trivial⟩
    rw [wp_bind]
    refine wp_setBaker fun v hset => ?_
    have hflags (f : BakerField) : f.flag v.baker = f.flag s.baker := by
      rw [hset.baker]
      cases f <;> rfl
    have hlog : accepted v.log = accepted s.log := by rw [hset.log, hu.accepted]
    have hpending : v.baker.pendingState = .end := by
      rw [hset.baker]
      rfl
    have htext : v.baker.suspended.text = text := by
      rw [hset.baker]
      exact (congrArg Buf.text (suspended_setSuspended s.baker _)).trans (Buf.text_write hw h0)
    change wp (takeFirstDisplay >>= fun front => getCtx SignConfigureBaker >>= fun ctx =>
      bakerReview [row "Validator status" ctx.suspended.text] front false) _ _ _
    refine wp_laterReview ?_ ?_ (fun shown hsub => ?_) (hsender.of_baker ?_ ?_ hlog) fun t hp ht =>
      hreview t (hp.trans (hset.replyPending.trans hu.reply)) ht
    · rw [hset.baker]
      rfl
    · rw [hpending]
      simp
    · change [row "Validator status" v.baker.suspended.text].Sublist shown at hsub
      rw [htext] at hsub
      rw [hlog, hpending]
      refine .fields rfl (fun hno => nomatch hno) (fun hno => nomatch hno) ?_
      have hread : BakerRead first (BakerField.batch ++ [.keys] ++ [.metadataUrl] ++
          BakerField.rates) ([] ++ [suspended]) (accepted s.log ++ shown) v :=
        (h.feed hflags (by rw [hset.txState, hu.hash])).mono (List.sublist_append_left _ _)
      have hselected : BakerField.suspended.flag v.baker = true :=
        (hflags .suspended).trans hflag
      rw [List.nil_append] at hread
      refine hread.next (.optional ?_)
      rw [if_pos hselected]
      exact hv.mono (hsub.trans (List.sublist_append_right _ _))
    · rw [hset.baker]
      rfl
    · rw [hset.accountSender, hu.sender]
  unfold suspendedText
  rw [wp_bind]
  refine wp_if (fun h0 => ?_) fun _ => wp_if (fun h1 => ?_) fun _ => trivial
  · rw [wp_pure]
    exact shown _ (by decide) (.inl ⟨by rw [h0], List.mem_singleton.mpr rfl⟩)
  · rw [wp_pure]
    exact shown _ (by decide) (.inr ⟨by rw [h1], List.mem_singleton.mpr rfl⟩)

/-! ## The flow -/

theorem BakerAt.read {fields : List BakerField} {stage : ConfigureBakerState} {rows : List Row}
    (h : BakerAt first stage rows w) (hs : BakerField.before stage = some fields) :
    BakerRead first fields [] rows w ∧
      (stage = .first → w.baker.hasKeys = true → w.baker.keysHashCtx = []) ∧
      (stage = .suspended → w.baker.hasSuspended = true) := by
  cases h with
  | fields hstage digest suspended h =>
    obtain rfl := Option.some.inj (hs.symm.trans hstage)
    exact ⟨h, digest, suspended⟩
  | url hstage =>
    rw [hstage] at hs
    cases hs

/-- The packets are under review. -/
def BakerUnderReview (ps : List Command) (w : World) : Prop :=
  ∃ first ∈ ps, BakerReviewing first w

theorem BakerStage.mono {ps : List Command} (h : BakerStage w ps) :
    BakerStage w (ps ++ [cmd]) := by
  cases h with
  | idle hs => exact .idle hs
  | stage hmem sender h => exact .stage (List.mem_append_left _ hmem) sender h
  | keys hmem sender h => exact .keys (List.mem_append_left _ hmem) sender h

theorem BakerStage.still {ps : List Command} (h : BakerStage s ps) (hst : Still s t)
    (hacc : accepted t.log = accepted s.log) : BakerStage t ps := by
  have hg : t.global = s.global := by rw [hst]
  have hbaker : t.baker = s.baker := by rw [World.baker, hg, World.baker]
  have hsender : t.accountSender = s.accountSender := by rw [hst]
  have hhash : t.txState.hash = s.txState.hash := by rw [hst]
  cases h with
  | idle hs =>
    refine .idle ?_
    rwa [hbaker]
  | stage hmem sender h =>
    refine .stage hmem (sender.of_baker (by rw [hbaker]) hsender hacc) ?_
    rw [hbaker, hacc]
    exact h.still hg hhash
  | keys hmem sender h =>
    obtain ⟨hstate, hkeys, part, hpart, hdigest, hread⟩ := h
    refine .keys hmem (SenderReady.still sender hsender hacc) ⟨?_, ?_, part, hpart, ?_, ?_⟩
    · rw [hbaker, hstate]
    · rw [hbaker, hkeys]
    · rw [hbaker, hdigest]
    · rw [hbaker]
      exact hread.of_flags (fun f => by rw [hbaker]) hhash

theorem dispatch_baker {isInitialCall : Bool} (hins : cmd.ins = insConfigureBaker) :
    dispatchInstruction cmd isInitialCall =
      withData cmd (handleSignConfigureBaker cmd isInitialCall) := by
  unfold dispatchInstruction
  rw [hins]
  rfl

theorem BakerStage.at_fields {ps : List Command} {fields : List BakerField} (h : BakerStage s ps)
    (hs : BakerField.before s.baker.state = some fields) :
    ∃ first ∈ ps, SenderFront first s ∧ BakerRead first fields [] (accepted s.log) s ∧
      (s.baker.state = .first → s.baker.hasKeys = true → s.baker.keysHashCtx = []) ∧
      (s.baker.state = .suspended → s.baker.hasSuspended = true) := by
  cases h with
  | idle hidle =>
    rcases hidle with hidle | hidle
    · rw [hidle] at hs
      cases hs
    · rw [hidle] at hs
      cases hs
  | stage hmem sender h => exact ⟨_, hmem, sender, h.read hs⟩
  | keys _ _ h =>
    rw [h.state] at hs
    cases hs

/-- A packet, by the stage it is for. -/
theorem BakerStage.flowing {ps : List Command} {ins : UInt8} (h : BakerStage s ps)
    (hd : cmd.data ≠ []) (hp : s.replyPending = true) :
    wp (handleSignConfigureBaker cmd false)
      (fun _ t => Flowing ins (fun w => BakerStage w (ps ++ [cmd]))
        (BakerUnderReview (ps ++ [cmd])) t) (fun _ _ => True) s := by
  have review (first : Command) (hmem : first ∈ ps) (t : World)
      (htp : t.replyPending = s.replyPending) (ht : BakerReviewing first t) :
      Flowing ins (fun w => BakerStage w (ps ++ [cmd])) (BakerUnderReview (ps ++ [cmd])) t :=
    .of_review (htp.trans hp) ⟨first, List.mem_append_left _ hmem, ht⟩
  unfold handleSignConfigureBaker
  rw [if_neg Bool.false_ne_true]
  change wp (getCtx SignConfigureBaker >>= _) _ _ _
  rw [wp_bind, wp_getCtx]
  refine wp_if (fun hi : _ ∧ s.baker.state = .initial => ?_) fun _ =>
    wp_if (fun hf : _ ∧ s.baker.state = .first => ?_) fun _ =>
    wp_if (fun hk : _ ∧ s.baker.state = .aggregationKey => ?_) fun _ =>
    wp_if (fun hl : _ ∧ s.baker.state = .urlLength => ?_) fun _ =>
    wp_if (fun hu : _ ∧ s.baker.state = .url => ?_) fun _ =>
    wp_if (fun hr : _ ∧ s.baker.state = .commissionRates => ?_) fun _ =>
    wp_if (fun hs : _ ∧ s.baker.state = .suspended => ?_) fun _ => trivial
  · refine wp_bakerInitial hi.2 fun t htp hfirst hheader ht => .of_between htp ?_
    rcases ht with ht | ht
    · exact .idle (.inr ht)
    · exact .stage (List.mem_append_right _ (List.mem_singleton.mpr rfl)) (.inl ⟨hfirst, hheader⟩)
        (ht _)
  · obtain ⟨first, hmem, hsender, hread, hdigest, -⟩ := h.at_fields (by rw [hf.2]; rfl)
    obtain ⟨bs, hnone, hhash⟩ := hread.hashed
    cases hnone
    refine wp_bakerFirst hread.flags (hdigest hf.2) ?_ ?_ (fun t htp hready ht => ?_)
      (review first hmem)
    · rw [hhash, List.append_nil, List.append_nil]
    · exact hsender.imp (fun h => h.2) id
    · exact .of_between htp (.keys (List.mem_append_left _ hmem) hready ht)
  · cases h with
    | idle hidle => rcases hidle with hidle | hidle <;> cases hidle.symm.trans hk.2
    | stage _ _ h =>
      cases h with
      | fields hstage =>
        rw [hk.2] at hstage
        cases hstage
      | url hstage => cases hstage.symm.trans hk.2
    | keys hmem sender h => exact wp_bakerAggregationKey h sender (review _ hmem)
  · obtain ⟨first, hmem, hsender, hread, -⟩ := h.at_fields (by rw [hl.2]; rfl)
    refine wp_bakerUrlLength hread hsender (fun t htp hfront ht => ?_) (review first hmem)
    exact .of_between htp (.stage (List.mem_append_left _ hmem) hfront ht)
  · cases h with
    | idle hidle => rcases hidle with hidle | hidle <;> cases hidle.symm.trans hu.2
    | stage hmem sender h =>
      cases h with
      | fields hstage =>
        rw [hu.2] at hstage
        cases hstage
      | url _ hflag hcount left more hpages h =>
        exact wp_bakerUrl h hflag hcount left hpages sender hd (review _ hmem)
          fun t ht => .of_free ht
    | keys _ _ h => cases h.state.symm.trans hu.2
  · obtain ⟨first, hmem, hsender, hread, -⟩ := h.at_fields (by rw [hr.2]; rfl)
    exact wp_handleCommissionRates hread hsender (review first hmem)
  · obtain ⟨first, hmem, hsender, hread, -, hflag⟩ := h.at_fields (by rw [hs.2]; rfl)
    exact wp_bakerSuspended hread (hflag hs.2) hsender (review first hmem)

/-- The user confirms a stage, or ends the flow. -/
theorem BakerReviewing.flowing {ps : List Command} {ins : UInt8} {c : Callback}
    (h : BakerReviewing first s) (hmem : first ∈ ps) (hc : c ∈ s.screen.actions) :
    wp (runCallback c)
      (fun _ t => Flowing ins (fun w => BakerStage w ps) (BakerUnderReview ps) t)
      (fun _ _ => True) (s.activated c) := by
  by_cases hend : s.baker.pendingState = .end
  · rw [h.last hend] at hc
    exact wp_mono (fun _ t ht => .of_free ht) (fun _ _ hE => hE) (wp_signFlowShared hc)
  · rcases h.more hend c hc with rfl | rfl
    · change wp (uxRunGuarded confirmConfigureBakerStage) _ _ _
      unfold uxRunGuarded
      rw [wp_catching]
      unfold confirmConfigureBakerStage
      rw [wp_bind, wp_modifyCtx]
      refine wp_bakerReplied fun u hu => ?_
      have hbaker : u.baker = { s.baker with state := s.baker.pendingState } :=
        hu.baker.trans (baker_of rfl)
      have haccepted : accepted u.log = accepted s.log ++ s.screen.rows := by
        rw [hu.accepted]
        simp [World.activated, Event.accepts, Callback.isIdle, Callback.isRejection, h.screen]
      refine .of_between hu.replyPending (.stage hmem (.inr ?_) ?_)
      · rw [haccepted]
        exact h.sender
      · rw [haccepted, hbaker]
        refine h.read.of_kept ⟨fun f => ?_, ?_, ?_⟩ (congrArg TxState.hash hu.txState)
        · rw [hbaker]
          cases f <;> rfl
        · rw [hbaker]
          rfl
        · rw [hbaker]
    · change wp rejectStagedReview _ _ _
      unfold rejectStagedReview
      rw [wp_bind, wp_releaseInstruction, wp_sendUserRejection]
      exact .of_free rfl

/-- The context when the first packet is dispatched. -/
def World.bakerBegun (s : World) : World :=
  { s with global := Member.inject ({ s.baker with state := .initial } : SignConfigureBaker) }

theorem bakerRules :
    FlowRules insConfigureBaker (fun ps w => BakerStage w ps) BakerUnderReview where
  still ps s t hst _ hacc hI := hI.still hst hacc
  first cmd s hins hl hp hz _ _ _ := by
    rw [dispatch_baker hins]
    refine wp_withData (fun _ => .of_between rfl (.idle (.inl ?_))) fun hd => ?_
    · change (s.global.view SignConfigureBaker).state = _
      rw [hz, InstructionContext.view_zeroed]
      rfl
    · unfold handleSignConfigureBaker
      rw [if_pos rfl, wp_bind, wp_modifyCtx]
      change wp (getCtx SignConfigureBaker >>= _) _ _ s.bakerBegun
      rw [wp_bind, wp_getCtx]
      have hinitial : s.bakerBegun.baker.state = .initial := by rw [baker_of rfl]
      have hother {state : ConfigureBakerState} (hne : state ≠ .initial)
          (h : s.bakerBegun.baker.state = state) : False := hne (h.symm.trans hinitial)
      refine wp_if (fun _ => ?_) fun _ => wp_if (fun h => (hother (by decide) h.2).elim) fun _ =>
        wp_if (fun h => (hother (by decide) h.2).elim) fun _ =>
        wp_if (fun h => (hother (by decide) h.2).elim) fun _ =>
        wp_if (fun h => (hother (by decide) h.2).elim) fun _ =>
        wp_if (fun h => (hother (by decide) h.2).elim) fun _ =>
        wp_if (fun h => (hother (by decide) h.2).elim) fun _ => trivial
      refine wp_bakerInitial hinitial fun t htp hfirst hheader ht => .of_between htp ?_
      rcases ht with ht | ht
      · exact .idle (.inr ht)
      · exact .stage (List.mem_singleton.mpr rfl) (.inl ⟨hfirst, hheader⟩) (ht _)
  next ps cmd s hins hl hp hI := by
    rw [dispatch_baker hins]
    refine wp_withData (fun _ => .of_between rfl ?_) fun hd => hI.flowing hd hp
    have hstill : BakerStage (s.answered [] swoWrongDataLength) ps :=
      BakerStage.still hI rfl (by simp [World.answered, Event.accepts])
    exact hstill.mono
  answer ps c s hc hl hp hr := by
    obtain ⟨first, hmem, h⟩ := hr
    exact h.flowing hmem hc

/-! ## Every run -/

/-- The fields that a bitmap selects. -/
def selectedFields (first : Command) : List BakerField :=
  BakerField.all.filter fun f => (beNat (bakerBitmap first)).testBit f.bit

/-- All the fields of the bitmap have been hashed, in the order of the protocol and
    nothing else behind the bitmap, and all of them have been shown. -/
structure BakerComplete (first : Command) (w : World) : Prop where
  hashed : ∃ bs, FieldsShown (accepted w.log ++ w.screen.rows) (selectedFields first) bs ∧
    w.txState.hash = bakerHead first ++ bs
  sender : SenderShown first (accepted w.log ++ w.screen.rows)

/-- The flow waits for its end exactly when the user can sign. -/
theorem BakerReviewing.offers_iff (h : BakerReviewing first w) (hp : w.replyPending = true) :
    OffersSigning w ↔ w.baker.pendingState = .end := by
  constructor
  · intro ho
    by_contra hne
    rcases h.more hne _ ho.2 with hc | hc <;> cases hc
  · intro hend
    refine ⟨hp, ?_⟩
    rw [h.last hend, signFlowShared]
    exact List.mem_cons_self

theorem BakerReviewing.complete (h : BakerReviewing first w)
    (hend : w.baker.pendingState = .end) : BakerComplete first w := by
  have hbefore : BakerField.before w.baker.pendingState = some BakerField.all := by
    rw [hend]
    rfl
  obtain ⟨hread, -⟩ := h.read.read hbefore
  obtain ⟨bs, hshown, hhash⟩ := hread.hashed
  refine ⟨⟨bs, ?_, by rw [hhash, List.append_nil]⟩, h.sender⟩
  have hsame : flagged w.baker BakerField.all = selectedFields first :=
    List.filter_congr fun f _ => hread.flags f
  rwa [← hsame]

/-- In every run in which reviews are answered once, configure baker stands at a
    stage whose fields have been hashed and accepted; the handler waits for its end
    exactly when the user can sign, and then the fields of the bitmap are complete. -/
theorem configure_baker_reviewed {inputs : List Input}
    (hgate : Along Concordium.step Answers World.start inputs)
    (hrun : runInputs World.start inputs = some w) (hl : w.latch = some insConfigureBaker) :
    (w.replyPending = false → BakerStage w (openPackets inputs)) ∧
    (w.replyPending = true → ∃ first ∈ openPackets inputs, BakerReviewing first w) ∧
    (w.replyPending = true → (OffersSigning w ↔ w.baker.pendingState = .end)) ∧
    (OffersSigning w → ∃ first ∈ openPackets inputs, BakerComplete first w) := by
  have hflow := bakerRules.run hgate hrun
  refine ⟨hflow.between hl, hflow.review hl, fun hp => ?_, fun ho => ?_⟩
  · obtain ⟨first, -, h⟩ := hflow.review hl hp
    exact h.offers_iff hp
  · obtain ⟨first, hmem, h⟩ := hflow.review hl ho.1
    exact ⟨first, hmem, h.complete ((h.offers_iff ho.1).mp ho)⟩

end Baker

/-- A configuration with a stake and a URL on two pages. -/
def bakerInputs : List Input :=
  [.apdu {
      ins := insConfigureBaker
      p1 := SignConfigureBaker.p1Initial
      p2 := 0
      data := 6 :: [44, 919, 0, 0, 0, 0].flatMap (toBe 4) ++
        (List.replicate 32 7 ++ toBe 8 1 ++ toBe 8 500 ++ toBe 4 4 ++ toBe 8 9) ++
        [kindConfigureBaker] ++ [0, 17]
      lc_le := by simp },
    .apdu ⟨insConfigureBaker, SignConfigureBaker.p1FirstBatch, 0, toBe 8 1000000, by simp⟩,
    .activate .confirmConfigureBakerStage,
    .apdu ⟨insConfigureBaker, SignConfigureBaker.p1UrlLength, 0, [0, 5], by decide⟩,
    .apdu ⟨insConfigureBaker, SignConfigureBaker.p1Url, 0, [97, 98, 99], by decide⟩,
    .activate .confirmConfigureBakerStage,
    .apdu ⟨insConfigureBaker, SignConfigureBaker.p1Url, 0, [100, 101], by decide⟩]

/-- The rules at work: the stake and the URL have been shown, and can be signed. -/
theorem configure_baker_url :
    letI : Platform := sdkDevice .bagl
    ∃ w, runInputs World.start bakerInputs = some w ∧ OffersSigning w ∧
      ∃ first ∈ openPackets bakerInputs, BakerComplete first w := by
  let : Platform := sdkDevice .bagl
  have hrun : (runInputs World.start bakerInputs).any (fun w =>
      decide (w.latch = some insConfigureBaker ∧ w.replyPending = true ∧
        .buildAndSignTransactionHash ∈ w.screen.actions)) = true := by
    decide +kernel
  obtain ⟨w, hw, hrun⟩ := (Option.any_eq_true _ _).mp hrun
  obtain ⟨hl, hp, hoffer⟩ := of_decide_eq_true hrun
  have hgate : Along Concordium.step Answers World.start bakerInputs := by
    decide +kernel
  exact ⟨w, hw, ⟨hp, hoffer⟩, (configure_baker_reviewed hgate hw hl).2.2.2 ⟨hp, hoffer⟩⟩

end Concordium
