/-
  The stages of configure baker.

  The fields arrive in stages, and each stage ends with a review.  While it is on
  screen the flow waits in a state of its own; the stage to go on with is set
  aside until the user has confirmed.
-/
import Concordium.BakerFields
import Concordium.ToAddress

namespace Concordium

open Buffer Union Wp Runs

set_option synthInstance.maxSize 1000000
set_option synthInstance.maxHeartbeats 100000

/-! ## The first packet -/

/-- The two bytes of the bitmap. -/
def bakerBitmap (first : Command) : Bytes := ((transactionBody first).drop 61).take 2

/-- What is hashed in front of the fields. -/
def bakerHead (first : Command) : Bytes :=
  transactionHeader first ++ [kindConfigureBaker] ++ bakerBitmap first

/-! ## Stages -/

namespace BakerField

/-- The fields in front of a stage. -/
def before : ConfigureBakerState → Option (List BakerField)
  | .first => some []
  | .urlLength => some (batch ++ [keys])
  | .commissionRates => some (batch ++ [keys] ++ [metadataUrl])
  | .suspended => some (batch ++ [keys] ++ [metadataUrl] ++ rates)
  | .end => some all
  | _ => none

end BakerField

section Behind
variable {ctx : SignConfigureBaker}

theorem flagged_congr {ctx' : SignConfigureBaker}
    (h : ∀ f : BakerField, f.flag ctx = f.flag ctx') (fields : List BakerField) :
    flagged ctx fields = flagged ctx' fields := List.filter_congr fun f _ => h f

theorem flagged_none {f : BakerField} (h : f.flag ctx = false) : flagged ctx [f] = [] := by
  rw [flagged_singleton, h]
  rfl

theorem hasCommissionRate_eq_false (h : ctx.hasCommissionRate = false) :
    flagged ctx BakerField.rates = [] := by
  simp only [SignConfigureBaker.hasCommissionRate, Bool.or_eq_false_iff] at h
  simp [flagged, BakerField.rates, BakerField.flag, h.1.1, h.1.2, h.2]

/-- The stage follows when `fields` have been read: what it skips is not flagged. -/
structure Behind (ctx : SignConfigureBaker) (fields : List BakerField)
    (stage : ConfigureBakerState) : Prop where
  before : ∃ fields', BakerField.before stage = some fields' ∧
    flagged ctx fields' = flagged ctx fields
  ne_first : stage ≠ .first
  suspended : stage = .suspended → ctx.hasSuspended = true

theorem behind_rates (ctx : SignConfigureBaker) :
    Behind ctx (BakerField.batch ++ [.keys] ++ [.metadataUrl] ++ BakerField.rates)
      ctx.stageBehindRates := by
  unfold SignConfigureBaker.stageBehindRates
  split_ifs with hs
  · exact ⟨⟨_, rfl, rfl⟩, by simp, fun _ => hs⟩
  · refine ⟨⟨_, rfl, ?_⟩, by simp, by simp⟩
    rw [BakerField.all, flagged_append _ _ [.suspended],
      flagged_none (f := .suspended) (Bool.not_eq_true _ ▸ hs), List.append_nil]

theorem behind_url (ctx : SignConfigureBaker) :
    Behind ctx (BakerField.batch ++ [.keys] ++ [.metadataUrl]) ctx.stageBehindUrl := by
  unfold SignConfigureBaker.stageBehindUrl
  split_ifs with hr
  · exact ⟨⟨_, rfl, rfl⟩, by simp, by simp⟩
  · obtain ⟨⟨fields, hfields, heq⟩, hne, hs⟩ := behind_rates ctx
    refine ⟨⟨fields, hfields, heq.trans ?_⟩, hne, hs⟩
    rw [flagged_append, hasCommissionRate_eq_false (Bool.not_eq_true _ ▸ hr), List.append_nil]

theorem behind_first (ctx : SignConfigureBaker) :
    Behind ctx (BakerField.batch ++ [.keys]) ctx.stageBehindFirst := by
  unfold SignConfigureBaker.stageBehindFirst
  split_ifs with hu
  · exact ⟨⟨_, rfl, rfl⟩, by simp, by simp⟩
  · obtain ⟨⟨fields, hfields, heq⟩, hne, hs⟩ := behind_url ctx
    refine ⟨⟨fields, hfields, heq.trans ?_⟩, hne, hs⟩
    rw [flagged_append, flagged_none (f := .metadataUrl) (Bool.not_eq_true _ ▸ hu),
      List.append_nil]

theorem flagged_first (h : (ctx.hasCapital || ctx.hasRestakeEarnings ||
    ctx.hasOpenForDelegation || ctx.hasKeys) = false) :
    flagged ctx (BakerField.batch ++ [.keys]) = [] := by
  simp only [Bool.or_eq_false_iff] at h
  simp [flagged, BakerField.batch, BakerField.flag, h.1.1.1, h.1.1.2, h.1.2, h.2]

/-- Without a field the flow waits for another first packet. -/
theorem before_stageBehindInitial (ctx : SignConfigureBaker) (hs : ctx.state = .initial) :
    ctx.stageBehindInitial = .initial ∨
      (∃ fields, BakerField.before ctx.stageBehindInitial = some fields ∧
        flagged ctx fields = []) ∧
      (ctx.stageBehindInitial = .suspended → ctx.hasSuspended = true) := by
  unfold SignConfigureBaker.stageBehindInitial
  split_ifs with hf hu hr hd
  · exact .inr ⟨⟨_, rfl, rfl⟩, by simp⟩
  · exact .inr ⟨⟨_, rfl, flagged_first (Bool.not_eq_true _ ▸ hf)⟩, by simp⟩
  · refine .inr ⟨⟨_, rfl, ?_⟩, by simp⟩
    rw [flagged_append, flagged_first (Bool.not_eq_true _ ▸ hf),
      flagged_none (f := .metadataUrl) (Bool.not_eq_true _ ▸ hu), List.append_nil]
  · refine .inr ⟨⟨_, rfl, ?_⟩, fun _ => hd⟩
    rw [flagged_append, flagged_append, flagged_first (Bool.not_eq_true _ ▸ hf),
      flagged_none (f := .metadataUrl) (Bool.not_eq_true _ ▸ hu),
      hasCommissionRate_eq_false (Bool.not_eq_true _ ▸ hr)]
    rfl
  · exact .inl hs

/-- The screens and the handler agree on whether a stage follows. -/
theorem more_behindRates (ctx : SignConfigureBaker) :
    ctx.hasSuspended = true ↔ ctx.stageBehindRates ≠ .end := by
  unfold SignConfigureBaker.stageBehindRates
  cases ctx.hasSuspended <;> simp

theorem more_behindUrl (ctx : SignConfigureBaker) :
    (ctx.hasCommissionRate || ctx.hasSuspended) = true ↔ ctx.stageBehindUrl ≠ .end := by
  unfold SignConfigureBaker.stageBehindUrl
  have hrates := more_behindRates ctx
  cases ctx.hasCommissionRate
  · simpa using hrates
  · simp

theorem more_behindFirst (ctx : SignConfigureBaker) :
    (ctx.hasMetadataUrl || ctx.hasCommissionRate || ctx.hasSuspended) = true ↔
      ctx.stageBehindFirst ≠ .end := by
  unfold SignConfigureBaker.stageBehindFirst
  have hurl := more_behindUrl ctx
  cases ctx.hasMetadataUrl
  · simpa using hurl
  · simp

end Behind

section Stages
variable [Platform] {first : Command} {stage : ConfigureBakerState} {rows : List Row}
  {s t w : World} {Q : Unit → World → Prop} {E : Exception → World → Prop}

/-- The context of the flow. -/
def World.baker (w : World) : SignConfigureBaker := w.global.view SignConfigureBaker

/-- The fields have been hashed as far as `fields`, where the rows show them, and
    `tail` behind them. -/
structure BakerRead (first : Command) (fields : List BakerField) (tail : Bytes)
    (rows : List Row) (w : World) : Prop where
  flags : ∀ f : BakerField, f.flag w.baker = (beNat (bakerBitmap first)).testBit f.bit
  hashed : ∃ bs, FieldsShown rows (flagged w.baker fields) bs ∧
    w.txState.hash = bakerHead first ++ bs ++ tail

/-- The flow stands at a stage; the rows show what has been hashed. -/
inductive BakerAt (first : Command) (stage : ConfigureBakerState) (rows : List Row) (w : World) :
    Prop where
  | fields {fields : List BakerField} (hstage : BakerField.before stage = some fields)
    (digest : stage = .first → w.baker.hasKeys = true → w.baker.keysHashCtx = [])
    (suspended : stage = .suspended → w.baker.hasSuspended = true)
    (h : BakerRead first fields [] rows w) : BakerAt first stage rows w
  | url {count : Bytes} {pages : List Bytes} (hstage : stage = .url)
    (hflag : w.baker.hasMetadataUrl = true) (hcount : count.length = 2)
    (left : beNat count = pages.flatten.length + w.baker.url.urlLength)
    (more : 0 < w.baker.url.urlLength) (hpages : (pages.map (row "URL")).Sublist rows)
    (h : BakerRead first (BakerField.batch ++ [.keys]) (count ++ pages.flatten) rows w) :
    BakerAt first stage rows w

/-- The election and signature keys have been hashed; the review of the first
    batch waits for the third key. -/
structure BakerKeysRead (first : Command) (w : World) : Prop where
  state : w.baker.state = .aggregationKey
  hasKeys : w.baker.hasKeys = true
  keys : ∃ part, part.length = 192 ∧
    w.baker.keysHashCtx = part.take 32 ++ (part.drop 96).take 32 ∧
    BakerRead first BakerField.batch part (batchRows w.baker) w

/-- The sender has been shown, or the next review is the first and shows it. -/
def SenderFront (first : Command) (w : World) : Prop :=
  w.baker.firstDisplay = true ∧ HeaderShown w.accountSender (transactionHeader first) ∨
    SenderShown first (accepted w.log)

/-- Where the flow stands between packets. -/
inductive BakerStage (w : World) (ps : List Command) : Prop where
  | idle (hs : w.baker.state = .unset ∨ w.baker.state = .initial)
  | stage {first : Command} (hmem : first ∈ ps) (sender : SenderFront first w)
    (h : BakerAt first w.baker.state (accepted w.log) w)
  | keys {first : Command} (hmem : first ∈ ps)
    (sender : HeaderShown w.accountSender (transactionHeader first) ∨
      SenderShown first (accepted w.log))
    (h : BakerKeysRead first w)

/-- The review of a stage is on screen. -/
structure BakerReviewing (first : Command) (w : World) : Prop where
  state : w.baker.state = .awaitingConfirm
  read : BakerAt first w.baker.pendingState (accepted w.log ++ w.screen.rows) w
  sender : SenderShown first (accepted w.log ++ w.screen.rows)
  last : w.baker.pendingState = .end → w.screen.actions = signFlowShared
  more : w.baker.pendingState ≠ .end → ∀ c ∈ w.screen.actions,
    c = .confirmConfigureBakerStage ∨ c = .rejectStagedReview
  screen : onScreen w.log = w.screen.rows

theorem BakerRead.feed {fields : List BakerField} {tail more : Bytes}
    (h : BakerRead first fields tail rows s)
    (hflag : ∀ f : BakerField, f.flag t.baker = f.flag s.baker)
    (hhash : t.txState.hash = s.txState.hash ++ more) :
    BakerRead first fields (tail ++ more) rows t := by
  obtain ⟨bs, hshown, heq⟩ := h.hashed
  refine ⟨fun f => (hflag f).trans (h.flags f), bs, ?_, ?_⟩
  · rwa [flagged_congr hflag]
  · rw [hhash, heq, List.append_assoc]

theorem BakerRead.mono {fields : List BakerField} {tail : Bytes} {rows' : List Row}
    (h : BakerRead first fields tail rows w) (hsub : rows.Sublist rows') :
    BakerRead first fields tail rows' w := by
  obtain ⟨bs, hshown, heq⟩ := h.hashed
  exact ⟨h.flags, bs, hshown.mono hsub, heq⟩

theorem BakerRead.next {fields fields' : List BakerField} {tail : Bytes}
    (h : BakerRead first fields tail rows w)
    (hnext : FieldsShown rows (flagged w.baker fields') tail) :
    BakerRead first (fields ++ fields') [] rows w := by
  obtain ⟨bs, hshown, heq⟩ := h.hashed
  refine ⟨h.flags, bs ++ tail, ?_, ?_⟩
  · rw [flagged_append]
    exact hshown.append hnext
  · rw [heq, List.append_nil, List.append_assoc]

theorem BakerRead.of_flags {fields : List BakerField} {tail : Bytes}
    (h : BakerRead first fields tail rows s)
    (hflag : ∀ f : BakerField, f.flag t.baker = f.flag s.baker)
    (hhash : t.txState.hash = s.txState.hash) : BakerRead first fields tail rows t := by
  have hfeed := h.feed hflag (hhash.trans (List.append_nil _).symm)
  rwa [List.append_nil] at hfeed

/-- The flags, the URL and the digest of the keys are the same. -/
structure BakerKept (ctx ctx' : SignConfigureBaker) : Prop where
  flag : ∀ f : BakerField, f.flag ctx' = f.flag ctx
  url : ctx'.url = ctx.url
  keysHashCtx : ctx'.keysHashCtx = ctx.keysHashCtx

theorem BakerAt.of_kept (h : BakerAt first stage rows s) (hkept : BakerKept s.baker t.baker)
    (hhash : t.txState.hash = s.txState.hash) : BakerAt first stage rows t := by
  cases h with
  | fields hstage digest suspended h =>
    refine .fields hstage (fun hs hk => ?_) (fun hs => ?_) (h.of_flags hkept.flag hhash)
    · rw [hkept.keysHashCtx]
      exact digest hs ((hkept.flag .keys).symm.trans hk)
    · exact (hkept.flag .suspended).trans (suspended hs)
  | url hstage hflag hcount left more hpages h =>
    refine .url hstage ((hkept.flag .metadataUrl).trans hflag) hcount ?_ ?_ hpages
      (h.of_flags hkept.flag hhash)
    · rwa [hkept.url]
    · rwa [hkept.url]

theorem BakerAt.still (h : BakerAt first stage rows s) (hg : t.global = s.global)
    (hhash : t.txState.hash = s.txState.hash) : BakerAt first stage rows t := by
  have hbaker : t.baker = s.baker := by rw [World.baker, hg, World.baker]
  exact h.of_kept (hbaker ▸ ⟨fun _ => rfl, rfl, rfl⟩) hhash

theorem BakerAt.behind {fields : List BakerField} (h : BakerRead first fields [] rows w)
    (hbehind : Behind w.baker fields stage) : BakerAt first stage rows w := by
  obtain ⟨⟨fields', hfields, heq⟩, hne, hs⟩ := hbehind
  exact .fields hfields (fun hstage => absurd hstage hne) hs ⟨h.flags, heq ▸ h.hashed⟩

/-- The end of a review, with the way on or the way to sign. -/
theorem wp_bakerReview {front more : Bool}
    (h : ∀ shown actions, rows.Sublist shown →
      (front = true → ∃ item, accountHeaderPairs s.accountSender item ⊆ shown) →
      (more = false → actions = signFlowShared) →
      (more = true → ∀ c ∈ actions, c = .confirmConfigureBakerStage ∨ c = .rejectStagedReview) →
      Q () { s with
        screen := s.screenOf shown actions
        log := s.log ++ [.drawn (s.screenOf shown actions)] }) :
    wp (bakerReview rows front more) Q E s := by
  unfold bakerReview
  rw [wp_bind, wp_get]
  cases (Platform.backend : Backend) with
  | nbgl =>
    have hsub : rows.Sublist (line "Review Transaction" "" ::
        ((if front then accountHeaderPairs s.accountSender "Sender" else []) ++ rows)) :=
      (List.sublist_append_right _ _).trans (List.sublist_cons_self _ _)
    have hfront {finish : Row} (hf : front = true) : accountHeaderPairs s.accountSender "Sender" ⊆
        line "Review Transaction" "" :: ((if front then accountHeaderPairs s.accountSender "Sender"
          else []) ++ rows) ++ [finish] := by
      rw [if_pos hf]
      intro r hr
      simp [hr]
    cases more with
    | true =>
      simp only [nbglStagedReview, nbglReview, if_true]
      rw [wp_showScreen]
      exact h _ _ (hsub.trans (List.sublist_append_left _ _)) (fun hf => ⟨_, hfront hf⟩)
        (fun hno => nomatch hno) (by simp)
    | false =>
      simp only [nbglSignReview, nbglReview, Bool.false_eq_true, if_false]
      rw [wp_showScreen]
      exact h _ _ (hsub.trans (List.sublist_append_left _ _)) (fun hf => ⟨_, hfront hf⟩)
        (fun _ => rfl) (fun hno => nomatch hno)
  | bagl =>
    dsimp only
    rw [wp_showScreen]
    refine h _ _ (List.sublist_append_right _ _) (fun hf => ⟨"From", ?_⟩) (fun hm => ?_)
      fun hm => ?_
    · rw [if_pos hf]
      intro r hr
      simp [hr]
    · rw [if_neg (by rw [hm]; exact Bool.false_ne_true)]
    · rw [if_pos hm]
      simp

/-- The review of a stage, from what has been set aside for it. -/
theorem wp_bakerReview_stage {front more : Bool} (hstate : s.baker.state = .awaitingConfirm)
    (hmore : more = true ↔ s.baker.pendingState ≠ .end)
    (hread : ∀ shown, rows.Sublist shown →
      BakerAt first s.baker.pendingState (accepted s.log ++ shown) s)
    (hsender : front = true ∧ HeaderShown s.accountSender (transactionHeader first) ∨
      SenderShown first (accepted s.log))
    (hQ : ∀ t, t.latch = s.latch → t.replyPending = s.replyPending → BakerReviewing first t →
      Q () t) : wp (bakerReview rows front more) Q E s := by
  refine wp_bakerReview fun shown actions hrows hfront hlast hactions => ?_
  have haccepted : accepted (s.log ++ [.drawn (s.screenOf shown actions)]) = accepted s.log := by
    simp [Event.accepts]
  refine hQ _ rfl rfl
    ⟨hstate, ?_, ?_, fun hend => hlast ?_, fun hne => hactions (hmore.mpr hne), ?_⟩
  · rw [haccepted]
    exact (hread shown hrows).still rfl rfl
  · rw [haccepted]
    rcases hsender with ⟨hf, hheader⟩ | ⟨account, item, hheader, hsub⟩
    · obtain ⟨item, hsub⟩ := hfront hf
      exact ⟨_, item, hheader, fun r hr => List.mem_append_right _ (hsub hr)⟩
    · exact ⟨account, item, hheader, fun r hr => List.mem_append_left _ (hsub hr)⟩
  · rw [← Bool.not_eq_true, hmore]
    exact not_not.mpr hend
  · simp [Event.accepts, World.screenOf]

end Stages

end Concordium
