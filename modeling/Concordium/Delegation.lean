/-
  What the configure-delegation review determines.

  A capital, a restake flag and a target are each hashed and shown when their
  bit of the bitmap is set.  The other thirteen bits are hashed as well, but
  select no field and have no row.
-/
import Concordium.Header

namespace Concordium

open Buffer Wp

/-- The bitmap of a configure-delegation request, behind the path, the header
    and the kind. -/
def delegationBitmap (cmd : Command) : ℕ :=
  beNat ((cmd.data.drop (1 + (cmd.data.getD 0 0).toNat * 4 + 61)).take 2)

section Review
variable [Platform] {s : World} {cmd : Command}

/-! ## The fields and their rows -/

section Fields
variable {ctx ctx' : SignConfigureDelegationContext} {bs bs' : Bytes}

/-- The row of a transaction that stops delegation. -/
def stopDelegationRow : Row :=
  match Platform.backend with
  | .nbgl => line "Action" "Stop delegation"
  | .bagl => line "Stop" "delegation"

/-- The row of the capital, when its bit is set. -/
def delegationCapitalRows (ctx : SignConfigureDelegationContext) : List Row :=
  if ctx.hasCapital then
    [if ctx.stopDelegation then stopDelegationRow
      else row "Amount to delegate" ctx.displayCapital.text] else []

omit [Platform] in
/-- The row of the restake flag, when its bit is set. -/
def delegationRestakeRows (ctx : SignConfigureDelegationContext) : List Row :=
  if ctx.hasRestakeEarnings then [row "Restake earnings" ctx.displayRestake.text] else []

omit [Platform] in
/-- The row of the target, when its bit is set. -/
def delegationTargetRows (ctx : SignConfigureDelegationContext) : List Row :=
  if ctx.hasDelegationTarget then
    [row "Delegation target" ctx.displayDelegationTarget.text] else []

/-- The context shows a capital. -/
def CapitalShown (ctx : SignConfigureDelegationContext) (bs : Bytes) : Prop :=
  if ctx.hasCapital then
    bs.length = 8 ∧ (ctx.stopDelegation = true ∧ beNat bs = 0 ∨
      ctx.stopDelegation = false ∧ AmountShown ctx.displayCapital.text (beNat bs))
  else bs = []

omit [Platform] in
/-- The context shows a restake flag. -/
def RestakeShown (ctx : SignConfigureDelegationContext) (bs : Bytes) : Prop :=
  if ctx.hasRestakeEarnings then
    bs = [0] ∧ ctx.displayRestake.text = ascii "No" ∨
      bs = [1] ∧ ctx.displayRestake.text = ascii "Yes"
  else bs = []

omit [Platform] in
/-- The context shows a delegation target. -/
def TargetShown (ctx : SignConfigureDelegationContext) (bs : Bytes) : Prop :=
  if ctx.hasDelegationTarget then
    bs = [0] ∧ ctx.displayDelegationTarget.text = ascii "Passive Delegation" ∨
      ∃ bakerId, bs = 1 :: bakerId ∧ bakerId.length = 8 ∧
        ctx.displayDelegationTarget.text = ascii "Baker ID " ++ decimal (beNat bakerId)
  else bs = []

omit [Platform] in
theorem optional_row_injective {has has' : Bool} {r r' : Row}
    (h : (if has then [r] else []) = if has' then [r'] else []) :
    has = has' ∧ (has = true → r = r') := by
  cases has <;> cases has' <;> simp_all

theorem CapitalShown.unique (hx : ExactTexts) (h : CapitalShown ctx bs)
    (h' : CapitalShown ctx' bs') (hrows : delegationCapitalRows ctx = delegationCapitalRows ctx') :
    ctx.hasCapital = ctx'.hasCapital ∧ bs = bs' := by
  obtain ⟨hhas, hrow⟩ := optional_row_injective hrows
  refine ⟨hhas, ?_⟩
  unfold CapitalShown at h h'
  by_cases hc : ctx.hasCapital = true
  · rw [if_pos hc] at h
    rw [if_pos (hhas ▸ hc)] at h'
    obtain ⟨hlen, hcapital⟩ := h
    obtain ⟨hlen', hcapital'⟩ := h'
    have hrow := hrow hc
    have hstop (text : Bytes) : stopDelegationRow ≠ row "Amount to delegate" text := by
      unfold stopDelegationRow
      have action : ascii "Action" ≠ ascii "Amount to delegate" := by decide
      have stop : ascii "Stop" ≠ ascii "Amount to delegate" := by decide
      intro h
      split at h
      · exact action (congrArg Row.item h)
      · exact stop (congrArg Row.item h)
    have hlt {bs : Bytes} (hbs : bs.length = 8) : beNat bs < 2 ^ 64 := by
      have := beNat_lt bs
      rw [hbs] at this
      exact this.trans_eq (by norm_num)
    refine beNat_injective (hlen.trans hlen'.symm) ?_
    rcases hcapital with ⟨hs, h0⟩ | ⟨hs, ha⟩ <;> rcases hcapital' with ⟨hs', h0'⟩ | ⟨hs', ha'⟩
    · rw [h0, h0']
    · simp only [hs, hs', if_true, Bool.false_eq_true, if_false] at hrow
      exact absurd hrow (hstop _)
    · simp only [hs, hs', if_true, Bool.false_eq_true, if_false] at hrow
      exact absurd hrow.symm (hstop _)
    · simp only [hs, hs', Bool.false_eq_true, if_false] at hrow
      have htext : ctx.displayCapital.text = ctx'.displayCapital.text := congrArg Row.value hrow
      exact ha.unique hx (hlt hlen) (hlt hlen') (htext ▸ ha')
  · rw [if_neg hc] at h
    rw [if_neg (hhas ▸ hc)] at h'
    exact h.trans h'.symm

omit [Platform] in
theorem RestakeShown.unique (h : RestakeShown ctx bs) (h' : RestakeShown ctx' bs')
    (hrows : delegationRestakeRows ctx = delegationRestakeRows ctx') :
    ctx.hasRestakeEarnings = ctx'.hasRestakeEarnings ∧ bs = bs' := by
  obtain ⟨hhas, hrow⟩ := optional_row_injective hrows
  refine ⟨hhas, ?_⟩
  unfold RestakeShown at h h'
  by_cases hr : ctx.hasRestakeEarnings = true
  · rw [if_pos hr] at h
    rw [if_pos (hhas ▸ hr)] at h'
    have htext : ctx.displayRestake.text = ctx'.displayRestake.text :=
      congrArg Row.value (hrow hr)
    have hne : ascii "No" ≠ ascii "Yes" := by decide
    rcases h with ⟨rfl, ht⟩ | ⟨rfl, ht⟩ <;> rcases h' with ⟨rfl, ht'⟩ | ⟨rfl, ht'⟩
    · rfl
    · exact absurd (ht.symm.trans (htext.trans ht')) hne
    · exact absurd (ht.symm.trans (htext.trans ht')) hne.symm
    · rfl
  · rw [if_neg hr] at h
    rw [if_neg (hhas ▸ hr)] at h'
    exact h.trans h'.symm

omit [Platform] in
theorem TargetShown.unique (h : TargetShown ctx bs) (h' : TargetShown ctx' bs')
    (hrows : delegationTargetRows ctx = delegationTargetRows ctx') :
    ctx.hasDelegationTarget = ctx'.hasDelegationTarget ∧ bs = bs' := by
  obtain ⟨hhas, hrow⟩ := optional_row_injective hrows
  refine ⟨hhas, ?_⟩
  unfold TargetShown at h h'
  by_cases ht : ctx.hasDelegationTarget = true
  · rw [if_pos ht] at h
    rw [if_pos (hhas ▸ ht)] at h'
    have htext : ctx.displayDelegationTarget.text = ctx'.displayDelegationTarget.text :=
      congrArg Row.value (hrow ht)
    have hhead : (ascii "Passive Delegation").head? ≠ (ascii "Baker ID ").head? := by decide
    have hne (digits : Bytes) : ascii "Passive Delegation" ≠ ascii "Baker ID " ++ digits :=
      fun h => hhead ((congrArg List.head? h).trans rfl)
    rcases h with ⟨rfl, ht⟩ | ⟨bakerId, rfl, hlen, ht⟩ <;>
      rcases h' with ⟨rfl, ht'⟩ | ⟨bakerId', rfl, hlen', ht'⟩
    · rfl
    · exact absurd (ht.symm.trans (htext.trans ht')) (hne _)
    · exact absurd (ht'.symm.trans (htext.symm.trans ht)) (hne _)
    · have hdigits := List.append_cancel_left (ht.symm.trans (htext.trans ht'))
      rw [beNat_injective (hlen.trans hlen'.symm) (decimal_injective hdigits)]
  · rw [if_neg ht] at h
    rw [if_neg (hhas ▸ ht)] at h'
    exact h.trans h'.symm

/-- The items of the three rows tell them apart. -/
theorem capital_rows : ∀ r ∈ delegationCapitalRows ctx,
    (r.item != ascii "Restake earnings" && r.item != ascii "Delegation target") = true := by
  have action : (ascii "Action" != ascii "Restake earnings" &&
      ascii "Action" != ascii "Delegation target") = true := by decide
  have stop : (ascii "Stop" != ascii "Restake earnings" &&
      ascii "Stop" != ascii "Delegation target") = true := by decide
  have amount : (ascii "Amount to delegate" != ascii "Restake earnings" &&
      ascii "Amount to delegate" != ascii "Delegation target") = true := by decide
  intro r hr
  unfold delegationCapitalRows stopDelegationRow at hr
  split at hr
  · rw [List.mem_singleton] at hr
    subst hr
    split
    · split
      · exact action
      · exact stop
    · exact amount
  · exact absurd hr List.not_mem_nil

omit [Platform] in
theorem restake_rows : ∀ r ∈ delegationRestakeRows ctx,
    (r.item == ascii "Restake earnings") = true := by
  intro r hr
  unfold delegationRestakeRows at hr
  split at hr
  · rw [List.mem_singleton] at hr
    subst hr
    exact beq_self_eq_true _
  · exact absurd hr List.not_mem_nil

omit [Platform] in
theorem target_rows : ∀ r ∈ delegationTargetRows ctx,
    ¬ (r.item == ascii "Restake earnings") = true := by
  have target : (ascii "Delegation target" == ascii "Restake earnings") = false := by decide
  intro r hr
  unfold delegationTargetRows at hr
  split at hr
  · rw [List.mem_singleton] at hr
    subst hr
    exact Bool.not_eq_true _ ▸ target
  · exact absurd hr List.not_mem_nil

omit [Platform] in
theorem later_rows : ∀ r ∈ delegationRestakeRows ctx ++ delegationTargetRows ctx,
    ¬ (r.item != ascii "Restake earnings" && r.item != ascii "Delegation target") = true := by
  intro r hr
  rw [Bool.and_eq_true, bne_iff_ne, bne_iff_ne, not_and_or, not_ne_iff, not_ne_iff]
  rcases List.mem_append.mp hr with hr | hr
  · exact .inl (beq_iff_eq.mp (restake_rows r hr))
  · unfold delegationTargetRows at hr
    split at hr
    · rw [List.mem_singleton] at hr
      exact .inr (congrArg Row.item hr)
    · exact absurd hr List.not_mem_nil

end Fields

/-! ## The fields as they are read -/

section Reading
variable {ctx : SignConfigureDelegationContext} {cdata : Bytes}
  {Q : SignConfigureDelegationContext × Bytes → World → Prop}

/-- The hash has been fed. -/
def World.fed (s : World) (bs : Bytes) (log : List Event) : World :=
  { s with txState := { s.txState with hash := s.txState.hash ++ bs }, log := log }

theorem wp_delegationCapital
    (h : ∀ stop text bs rest log,
      CapitalShown { ctx with stopDelegation := stop, displayCapital := text } bs →
      Q ({ ctx with stopDelegation := stop, displayCapital := text }, rest) (s.fed bs log)) :
    wp (delegationCapital ctx cdata) Q (fun _ _ => True) s := by
  unfold delegationCapital
  refine wp_if (fun hhas => ?_) fun hhas => ?_
  · simp only [wp_bind, wp_throwIf, wp_u8be, implies_true, true_and, and_true]
    intro _ hlen
    have hbs : ((cdata.drop 0).take 8).length = 8 := by
      rw [List.length_take, List.drop_zero]
      omega
    refine wp_if (fun h0 => ?_) fun _ => ?_
    · simp only [wp_bind, wp_slice, wp_updateHash, wp_advance, wp_pure, implies_true, and_true]
      intro _ _
      refine h true ctx.displayCapital _ _ _ ?_
      rw [CapitalShown, if_pos hhas]
      exact ⟨hbs, .inl ⟨rfl, h0⟩⟩
    · rw [← bind_assoc, wp_bind]
      refine wp_amountToCcdDisplay le_rfl (fun _ => trivial) fun text htext => ?_
      simp only [wp_bind, wp_slice, wp_updateHash, wp_advance, wp_pure, implies_true, and_true]
      intro _ _
      refine h false text _ _ _ ?_
      rw [CapitalShown, if_pos hhas]
      exact ⟨hbs, .inr ⟨rfl, .of_text htext⟩⟩
  · have hQ := h ctx.stopDelegation ctx.displayCapital [] cdata s.log (by
      rw [CapitalShown, if_neg hhas])
    simpa [World.fed] using hQ

omit [Platform] in
theorem wp_delegationRestake
    (h : ∀ text bs rest log, RestakeShown { ctx with displayRestake := text } bs →
      Q ({ ctx with displayRestake := text }, rest) (s.fed bs log)) :
    wp (delegationRestake ctx cdata) Q (fun _ _ => True) s := by
  unfold delegationRestake
  refine wp_if (fun hhas => ?_) fun hhas => ?_
  · simp only [wp_bind, wp_throwIf, wp_u8, wp_updateHash, wp_advance, implies_true, true_and,
      and_true]
    intro _ _ _
    unfold restakeText
    refine wp_if (fun h0 => ?_) fun _ => wp_if (fun h1 => ?_) fun _ => trivial
    · simp only [wp_bind, wp_pure, wp_memmove, implies_true, and_true]
      intro hw
      refine h _ _ _ _ ?_
      rw [RestakeShown, if_pos hhas]
      exact .inl ⟨by rw [h0], Buf.text_write hw (by decide)⟩
    · simp only [wp_bind, wp_pure, wp_memmove, implies_true, and_true]
      intro hw
      refine h _ _ _ _ ?_
      rw [RestakeShown, if_pos hhas]
      exact .inr ⟨by rw [h1], Buf.text_write hw (by decide)⟩
  · have hQ := h ctx.displayRestake [] cdata s.log (by rw [RestakeShown, if_neg hhas])
    simpa [World.fed] using hQ

omit [Platform] in
theorem wp_delegationTarget
    (h : ∀ text bs rest log, TargetShown { ctx with displayDelegationTarget := text } bs →
      Q ({ ctx with displayDelegationTarget := text }, rest) (s.fed bs log)) :
    wp (delegationTarget ctx cdata) Q (fun _ _ => True) s := by
  unfold delegationTarget
  refine wp_if (fun hhas => ?_) fun hhas => ?_
  · simp only [wp_bind, wp_throwIf, wp_u8, wp_updateHash, wp_advance, implies_true, true_and,
      and_true]
    intro _ _ _
    refine wp_if (fun h0 => ?_) fun _ => wp_if (fun h1 => ?_) fun _ => trivial
    · simp only [wp_bind, wp_pure, wp_memmove, implies_true, and_true]
      intro hw
      refine h _ _ _ _ ?_
      rw [TargetShown, if_pos hhas]
      exact .inl ⟨by rw [h0], Buf.text_write hw (by decide)⟩
    · simp only [wp_bind, wp_throwIf, wp_u8be, wp_memmove, implies_true, true_and, and_true]
      intro hlong _ hw
      refine wp_binToDec (fun _ => trivial) fun _ => ?_
      simp only [wp_bind, wp_memmove, wp_slice, wp_updateHash, wp_advance,
        wp_pure, implies_true, and_true]
      intro hw' _ _
      rw [h1, List.append_assoc s.txState.hash]
      refine h _ (1 :: (((cdata.drop 1).drop 0).take 8)) _ _ ?_
      rw [TargetShown, if_pos hhas]
      refine .inr ⟨_, rfl, ?_, text_of_label (by decide) (zero_not_mem_decimal _) hw hw'⟩
      rw [List.length_take, List.drop_zero]
      omega
  · have hQ := h ctx.displayDelegationTarget [] cdata s.log (by rw [TargetShown, if_neg hhas])
    simpa [World.fed] using hQ

end Reading

/-! ## The review -/

/-- A request as the review shows it: the fields, each with what its rows
    show. -/
structure DelegationReview where
  account : AccountSender
  ctx : SignConfigureDelegationContext
  header : Bytes
  bitmap : Bytes
  capital : Bytes
  restake : Bytes
  target : Bytes
  header_shown : HeaderShown account header
  bitmap_length : bitmap.length = 2
  hasCapital : ctx.hasCapital = (beNat bitmap).testBit 0
  hasRestakeEarnings : ctx.hasRestakeEarnings = (beNat bitmap).testBit 1
  hasDelegationTarget : ctx.hasDelegationTarget = (beNat bitmap).testBit 2
  capital_shown : CapitalShown ctx capital
  restake_shown : RestakeShown ctx restake
  target_shown : TargetShown ctx target

namespace DelegationReview

/-- What has been fed to the transaction hash. -/
def payload (r : DelegationReview) : Bytes :=
  r.header ++ (kindConfigureDelegation :: (r.bitmap ++ (r.capital ++ (r.restake ++ r.target))))

/-- What is on screen. -/
def rows (r : DelegationReview) : List Row :=
  accountReview (line "Review Transaction" "")
    (line "Review transaction to" "configure delegation") "Sender" "Sign transaction" r.account
    (delegationCapitalRows r.ctx ++ (delegationRestakeRows r.ctx ++ delegationTargetRows r.ctx))

omit [Platform] in
theorem mod_eight_of_testBit {m n : ℕ} (h0 : m.testBit 0 = n.testBit 0)
    (h1 : m.testBit 1 = n.testBit 1) (h2 : m.testBit 2 = n.testBit 2) : m % 8 = n % 8 := by
  refine Nat.eq_of_testBit_eq fun i => ?_
  rw [show 8 = 2 ^ 3 from rfl, Nat.testBit_mod_two_pow, Nat.testBit_mod_two_pow]
  match i with
  | 0 | 1 | 2 => simp [h0, h1, h2]
  | i + 3 => simp

/-- The rows determine every field, and of the bitmap the bits that select
    one. -/
theorem fields_unique (hx : ExactTexts) {r r' : DelegationReview} (h : r.rows = r'.rows) :
    beNat r.bitmap % 8 = beNat r'.bitmap % 8 ∧ r.capital = r'.capital ∧
      r.restake = r'.restake ∧ r.target = r'.target := by
  obtain ⟨-, hbody⟩ := accountReview_injective h
  obtain ⟨hcapital, hrest⟩ := append_inj_of_sorts
    (p := fun r => r.item != ascii "Restake earnings" && r.item != ascii "Delegation target")
    hbody capital_rows capital_rows later_rows later_rows
  obtain ⟨hrestake, htarget⟩ := append_inj_of_sorts
    (p := fun r => r.item == ascii "Restake earnings") hrest restake_rows restake_rows target_rows
    target_rows
  obtain ⟨h0, hc⟩ := r.capital_shown.unique hx r'.capital_shown hcapital
  obtain ⟨h1, hr⟩ := r.restake_shown.unique r'.restake_shown hrestake
  obtain ⟨h2, ht⟩ := r.target_shown.unique r'.target_shown htarget
  rw [r.hasCapital, r'.hasCapital] at h0
  rw [r.hasRestakeEarnings, r'.hasRestakeEarnings] at h1
  rw [r.hasDelegationTarget, r'.hasDelegationTarget] at h2
  exact ⟨mod_eight_of_testBit h0 h1 h2, hc, hr, ht⟩

/-- Reviews that look alike are of the same content if and only if the bits
    that select no field agree. -/
theorem content_iff (hx : ExactTexts) {r r' : DelegationReview} (h : r.rows = r'.rows) :
    signedContent r.payload = signedContent r'.payload ↔
      beNat r.bitmap / 8 = beNat r'.bitmap / 8 := by
  obtain ⟨hpairs, -⟩ := accountReview_injective h
  have hheader := r.header_shown.unique_of_pairs hx r'.header_shown hpairs
  obtain ⟨hmod, hc, hr, ht⟩ := fields_unique hx h
  have hlen : r.bitmap.length = r'.bitmap.length := r.bitmap_length.trans r'.bitmap_length.symm
  rw [payload, payload, signedContent_append r.header_shown.length,
    signedContent_append r'.header_shown.length, hheader, List.append_cancel_left_eq]
  constructor
  · intro hcontent
    rw [(List.append_inj (List.cons.inj hcontent).2 hlen).1]
  · intro hdiv
    have hbitmap : beNat r.bitmap = beNat r'.bitmap := by
      rw [← Nat.div_add_mod (beNat r.bitmap) 8, hdiv, hmod, Nat.div_add_mod]
    rw [beNat_injective hlen hbitmap, hc, hr, ht]

end DelegationReview

/-- The screen shows the account and the fields of the context. -/
theorem wp_startConfigureDelegationDisplay {Q : Unit → World → Prop} {E : Exception → World → Prop}
    (h : ∀ t ctx, ctx = s.global.view SignConfigureDelegationContext →
      t.screen.rows = accountReview (line "Review Transaction" "")
        (line "Review transaction to" "configure delegation") "Sender" "Sign transaction"
        s.accountSender
        (delegationCapitalRows ctx ++ (delegationRestakeRows ctx ++ delegationTargetRows ctx)) →
      t.txState = s.txState → Q () t) :
    wp startConfigureDelegationDisplay Q E s := by
  unfold startConfigureDelegationDisplay
  simp only [wp_bind, wp_getCtx, wp_get]
  cases hb : (Platform.backend : Backend) with
  | nbgl =>
    simp only [nbglSignReview, nbglReview, wp_showScreen]
    refine h _ _ rfl ?_ rfl
    simp only [World.screenOf, accountReview, delegationCapitalRows, delegationRestakeRows,
      delegationTargetRows, stopDelegationRow, hb, List.append_assoc]
  | bagl =>
    simp only [wp_showScreen]
    refine h _ _ rfl ?_ rfl
    simp only [World.screenOf, accountReview, delegationCapitalRows, delegationRestakeRows,
      delegationTargetRows, stopDelegationRow, hb, List.append_assoc]

theorem wp_handleSignConfigureDelegation {isInitialCall : Bool} :
    wp (handleSignConfigureDelegation cmd isInitialCall)
      (fun _ t => ∃ r : DelegationReview, beNat r.bitmap = delegationBitmap cmd ∧
        t.txState.hash = r.payload ∧ t.screen.rows = r.rows) (fun _ _ => True) s := by
  unfold handleSignConfigureDelegation
  simp only [wp_bind, wp_throwIf, implies_true, true_and]
  intro _
  refine wp_parseDerivationPath (fun _ _ => trivial) fun dp log _ => ?_
  simp only [wp_bind, wp_throwIf, wp_advance, wp_sha256Init, implies_true, true_and, and_true]
  intro _ _
  refine wp_hashAccountTransactionHeaderAndKind (fun _ _ => trivial) (fun _ _ => trivial)
    fun account log _ hheader _ _ => ?_
  simp only [wp_bind, wp_throwIf, wp_advance, wp_slice, wp_updateHash, wp_u2be, wp_getCtx,
    List.drop_drop, implies_true, true_and, and_true]
  intro _ _ hbitmap _ _ _ _
  refine wp_delegationCapital fun stop capital cs rest log hcapital => ?_
  simp only [wp_bind]
  refine wp_delegationRestake fun restake rs rest log hrestake => ?_
  simp only [wp_bind]
  refine wp_delegationTarget fun target ts rest log htarget => ?_
  simp only [wp_bind, wp_throwIf, wp_setCtx, implies_true, true_and]
  intro _
  refine wp_startConfigureDelegationDisplay fun t ctx hctx hrows htx => ?_
  rw [InstructionContext.view_inject] at hctx
  have hcapital : CapitalShown ctx cs := by rw [hctx]; exact hcapital
  have hrestake : RestakeShown ctx rs := by rw [hctx]; exact hrestake
  have htarget : TargetShown ctx ts := by rw [hctx]; exact htarget
  let bitmap := (cmd.data.drop (1 + (cmd.data.getD 0 0).toNat * 4 + 61)).take 2
  refine ⟨⟨account, ctx, _, bitmap, cs, rs, ts, hheader, ?_, ?_, ?_, ?_, hcapital, hrestake,
    htarget⟩, rfl, ?_, hrows⟩
  · rw [List.length_take, List.length_drop]
    rw [List.length_drop] at hbitmap
    omega
  · exact congrArg SignConfigureDelegationContext.hasCapital hctx
  · exact congrArg SignConfigureDelegationContext.hasRestakeEarnings hctx
  · exact congrArg SignConfigureDelegationContext.hasDelegationTarget hctx
  · rw [htx]
    simp [World.fed, DelegationReview.payload, bitmap]

theorem delegation_reviewed {w t : World} (hs : step w (.apdu cmd) = some t)
    (hi : cmd.ins = insConfigureDelegation) (hp : t.replyPending = true) :
    ∃ r : DelegationReview, beNat r.bitmap = delegationBitmap cmd ∧
      t.txState.hash = r.payload ∧ t.screen.rows = r.rows := by
  refine of_pending_step (P := fun t => ∃ r : DelegationReview, beNat r.bitmap =
    delegationBitmap cmd ∧ t.txState.hash = r.payload ∧ t.screen.rows = r.rows) hs hp
    fun isInitialCall s _ => ?_
  have hd : dispatchInstruction cmd isInitialCall =
      withData cmd (handleSignConfigureDelegation cmd isInitialCall) := by
    unfold dispatchInstruction
    rw [hi]
    rfl
  rw [hd]
  refine wp_withData (fun _ hfalse => absurd hfalse Bool.false_ne_true) fun _ => ?_
  exact wp_mono (fun _ _ hr _ => hr) (fun _ _ _ => trivial) wp_handleSignConfigureDelegation

/-! ## Requests that look alike -/

/-- Two requests under review with the same rows sign the same content, nonce,
    payload size and expiry apart, if and only if they agree on the bits of the
    bitmap that select no field. -/
theorem delegation_rows_determine_iff (hx : ExactTexts) {w w' t t' : World} {cmd cmd' : Command}
    (hs : step w (.apdu cmd) = some t) (hs' : step w' (.apdu cmd') = some t')
    (hi : cmd.ins = insConfigureDelegation) (hi' : cmd'.ins = insConfigureDelegation)
    (hp : t.replyPending = true) (hp' : t'.replyPending = true)
    (hrows : t.screen.rows = t'.screen.rows) :
    signedContent t.txState.hash = signedContent t'.txState.hash ↔
      delegationBitmap cmd / 8 = delegationBitmap cmd' / 8 := by
  obtain ⟨r, hbitmap, hhash, hr⟩ := delegation_reviewed hs hi hp
  obtain ⟨r', hbitmap', hhash', hr'⟩ := delegation_reviewed hs' hi' hp'
  rw [hhash, hhash', ← hbitmap, ← hbitmap']
  exact DelegationReview.content_iff hx (hr.symm.trans (hrows.trans hr'))

end Review

/-- A request that sets the restake flag, with the given nonce and the given low
    byte of the bitmap. -/
def restakeRequest (nonce : ℕ) (bits : UInt8) : Command where
  ins := insConfigureDelegation
  p1 := 0
  p2 := 0
  data := 6 :: [44, 919, 0, 0, 0, 0].flatMap (toBe 4) ++
    (List.replicate 32 7 ++ toBe 8 nonce ++ toBe 8 500 ++ toBe 4 4 ++ toBe 8 9) ++
    [kindConfigureDelegation, 0, bits, 1]
  lc_le := by simp

/-- Two requests with the same rows: bit 3 selects no field, has no row, and is
    signed. -/
theorem unused_bit_unseen :
    letI : Platform := sdkDevice .nbgl
    ExactTexts ∧ ¬ ∀ inputs inputs' w w' t t' cmd cmd',
      runInputs World.start inputs = some w → runInputs World.start inputs' = some w' →
      step w (.apdu cmd) = some t → step w' (.apdu cmd') = some t' →
      cmd.ins = insConfigureDelegation → cmd'.ins = insConfigureDelegation →
      t.replyPending = true → t'.replyPending = true → t.screen.rows = t'.screen.rows →
      signedContent t.txState.hash = signedContent t'.txState.hash := by
  let : Platform := sdkDevice .nbgl
  refine ⟨exactTexts_sdkDevice .nbgl, fun h => ?_⟩
  have hrun : (step World.start (.apdu (restakeRequest 1 2))).any (fun t =>
      (step World.start (.apdu (restakeRequest 1 10))).any fun t' =>
        decide (t.replyPending = true ∧ t'.replyPending = true ∧ t.screen.rows = t'.screen.rows ∧
          signedContent t.txState.hash ≠ signedContent t'.txState.hash)) = true := by
    decide +kernel
  obtain ⟨t, ht, hrun⟩ := (Option.any_eq_true _ _).mp hrun
  obtain ⟨t', ht', hrun⟩ := (Option.any_eq_true _ _).mp hrun
  obtain ⟨hp, hp', hrows, hne⟩ := of_decide_eq_true hrun
  exact hne (h [] [] World.start World.start t t' (restakeRequest 1 2) (restakeRequest 1 10) rfl rfl
    ht ht' rfl rfl hp hp' hrows)

/-- Two requests that differ in their nonce and agree on the unused bits. -/
theorem nonce_apart_same_content :
    letI : Platform := sdkDevice .nbgl
    ∃ t t', step World.start (.apdu (restakeRequest 1 2)) = some t ∧
      step World.start (.apdu (restakeRequest 2 2)) = some t' ∧
      signedContent t.txState.hash = signedContent t'.txState.hash := by
  let : Platform := sdkDevice .nbgl
  have hrun : (step World.start (.apdu (restakeRequest 1 2))).any (fun t =>
      (step World.start (.apdu (restakeRequest 2 2))).any fun t' =>
        decide (t.replyPending = true ∧ t'.replyPending = true ∧
          t.screen.rows = t'.screen.rows)) = true := by decide +kernel
  obtain ⟨t, ht, hrun⟩ := (Option.any_eq_true _ _).mp hrun
  obtain ⟨t', ht', hrun⟩ := (Option.any_eq_true _ _).mp hrun
  obtain ⟨hp, hp', hrows⟩ := of_decide_eq_true hrun
  have hbits : delegationBitmap (restakeRequest 1 2) / 8 =
      delegationBitmap (restakeRequest 2 2) / 8 := by decide
  exact ⟨t, t', ht, ht', (delegation_rows_determine_iff (exactTexts_sdkDevice .nbgl) ht ht' rfl rfl
    hp hp' hrows).mpr hbits⟩

end Concordium
