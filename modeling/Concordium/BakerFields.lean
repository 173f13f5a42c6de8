/-
  The fields of a configure-baker transaction (`sign_configure_baker.c`).

  A bitmap selects the fields that follow it.  Each is a piece of the
  transaction, and has rows that show it.
-/
import Concordium.CborBlob
import Concordium.HashedFields

namespace Concordium

open Buffer Union Wp

set_option synthInstance.maxSize 1000000
set_option synthInstance.maxHeartbeats 100000

/-! ## Fields -/

/-- The optional fields, in the order of the protocol. -/
inductive BakerField where
  | capital | restakeEarnings | openForDelegation | keys | metadataUrl
  | transactionFeeCommission | bakingRewardCommission | finalizationRewardCommission | suspended
deriving DecidableEq, Repr

namespace BakerField

/-- The bit that selects the field. -/
def bit : BakerField → ℕ
  | capital => 0
  | restakeEarnings => 1
  | openForDelegation => 2
  | keys => 3
  | metadataUrl => 4
  | transactionFeeCommission => 5
  | bakingRewardCommission => 6
  | finalizationRewardCommission => 7
  | suspended => 8

/-- The flag that is set for the field. -/
def flag (ctx : SignConfigureBaker) : BakerField → Bool
  | capital => ctx.hasCapital
  | restakeEarnings => ctx.hasRestakeEarnings
  | openForDelegation => ctx.hasOpenForDelegation
  | keys => ctx.hasKeys
  | metadataUrl => ctx.hasMetadataUrl
  | transactionFeeCommission => ctx.hasTransactionFeeCommission
  | bakingRewardCommission => ctx.hasBakingRewardCommission
  | finalizationRewardCommission => ctx.hasFinalizationRewardCommission
  | suspended => ctx.hasSuspended

/-- The fields of the first batch, but for the keys. -/
def batch : List BakerField := [capital, restakeEarnings, openForDelegation]

/-- The commission rates. -/
def rates : List BakerField :=
  [transactionFeeCommission, bakingRewardCommission, finalizationRewardCommission]

/-- All the fields. -/
def all : List BakerField := batch ++ [keys] ++ [metadataUrl] ++ rates ++ [suspended]

theorem flag_setFlags (ctx : SignConfigureBaker) (bitmap : ℕ) (f : BakerField) :
    f.flag (ctx.setFlags bitmap) = bitmap.testBit f.bit := by
  cases f <;> rfl

end BakerField

/-- The fields that are flagged. -/
def flagged (ctx : SignConfigureBaker) (fields : List BakerField) : List BakerField :=
  fields.filter (·.flag ctx)

theorem flagged_append (ctx : SignConfigureBaker) (fs gs : List BakerField) :
    flagged ctx (fs ++ gs) = flagged ctx fs ++ flagged ctx gs := List.filter_append _ _

theorem flagged_singleton (ctx : SignConfigureBaker) (f : BakerField) :
    flagged ctx [f] = if f.flag ctx then [f] else [] := by
  rw [flagged, List.filter_singleton]
  cases f.flag ctx <;> rfl

/-- The verification keys among the keys and their proofs. -/
def verificationKeys (keys : Bytes) : Bytes :=
  keys.take 32 ++ (keys.drop 96).take 32 ++ (keys.drop 192).take 96

/-- `bs` has been hashed; the flow is otherwise as it was, and the account too. -/
structure FedOnto (bs : Bytes) (s t : World) : Prop extends HashedOnto bs s t where
  sender : t.accountSender = s.accountSender

theorem FedOnto.trans {bs cs : Bytes} {s t u : World} (h : FedOnto bs s t)
    (h' : FedOnto cs t u) : FedOnto (bs ++ cs) s u :=
  ⟨h.toHashedOnto.trans h'.toHashedOnto, h'.sender.trans h.sender⟩

theorem wp_updateHash_fed {bs : Bytes} {s : World} {Q : Unit → World → Prop}
    {E : Exception → World → Prop} (h : ∀ t, FedOnto bs s t → Q () t) :
    wp (updateHash bs) Q E s := by
  rw [wp_updateHash]
  exact h _ ⟨⟨rfl, rfl, rfl, rfl, by simp [Event.accepts]⟩, rfl⟩

section Fields
variable [Platform] {ctx : SignConfigureBaker} {cdata : Bytes} {s t : World}

/-- The text of a commission rate. -/
def percentageText (rate : ℕ) : Option Bytes :=
  (Platform.formatFpu64Trimmed fpu64TmpLen rate 3).map fun t =>
    t.takeWhile (· != 0) ++ ascii "%"

/-- The rows show a rate of four bytes. -/
def RateShown (item : String) (v : Bytes) (rows : List Row) : Prop :=
  v.length = 4 ∧ ∃ text, percentageText (beNat v) = some text ∧ row item text ∈ rows

/-- The rows show `v` as the field: a piece of the right size, in words. -/
def BakerField.Shown (v : Bytes) (rows : List Row) : BakerField → Prop
  | capital => v.length = 8 ∧ (beNat v = 0 ∧ stopBakingRow ∈ rows ∨ beNat v ≠ 0 ∧
      ∃ text, amountText (beNat v) = some text ∧ row "Amount to stake" text ∈ rows)
  | restakeEarnings => v = [0] ∧ line "Restake earnings" "No" ∈ rows ∨
      v = [1] ∧ line "Restake earnings" "Yes" ∈ rows
  | openForDelegation => v = [0] ∧ line "Pool status" "Open for all" ∈ rows ∨
      v = [1] ∧ line "Pool status" "Closed for new" ∈ rows ∨
      v = [2] ∧ line "Pool status" "Closed for all" ∈ rows
  | keys => v.length = 352 ∧
      row "Baker keys hash" (hexUpper (Platform.sha256 (verificationKeys v)).bytes) ∈ rows
  | metadataUrl => ∃ count pages, v = count ++ pages.flatten ∧ count.length = 2 ∧
      beNat count = pages.flatten.length ∧ (pages.map (row "URL")).Sublist rows ∧
      (pages = [] → line "Empty URL" "" ∈ rows)
  | transactionFeeCommission => RateShown "Transaction fee" v rows
  | bakingRewardCommission => RateShown "Baking reward" v rows
  | finalizationRewardCommission => RateShown "Finalization reward" v rows
  | suspended => v = [0] ∧ line "Validator status" "Resume validator" ∈ rows ∨
      v = [1] ∧ line "Validator status" "Suspend validator" ∈ rows

/-- The pieces of the fields stand one behind the other, and the rows show them. -/
inductive FieldsShown (rows : List Row) : List BakerField → Bytes → Prop where
  | nil : FieldsShown rows [] []
  | cons {f : BakerField} {fields : List BakerField} {v bs : Bytes} (hv : f.Shown v rows)
    (h : FieldsShown rows fields bs) : FieldsShown rows (f :: fields) (v ++ bs)

theorem BakerField.Shown.mono {f : BakerField} {v : Bytes} {rows rows' : List Row}
    (h : f.Shown v rows) (hsub : rows.Sublist rows') : f.Shown v rows' := by
  have hmem := hsub.subset
  cases f with
  | capital =>
    obtain ⟨hlen, ⟨h0, hrow⟩ | ⟨hne, text, htext, hrow⟩⟩ := h
    · exact ⟨hlen, .inl ⟨h0, hmem hrow⟩⟩
    · exact ⟨hlen, .inr ⟨hne, text, htext, hmem hrow⟩⟩
  | restakeEarnings => exact h.imp (fun h => ⟨h.1, hmem h.2⟩) fun h => ⟨h.1, hmem h.2⟩
  | openForDelegation =>
    rcases h with ⟨hv, hrow⟩ | ⟨hv, hrow⟩ | ⟨hv, hrow⟩
    · exact .inl ⟨hv, hmem hrow⟩
    · exact .inr (.inl ⟨hv, hmem hrow⟩)
    · exact .inr (.inr ⟨hv, hmem hrow⟩)
  | keys => exact ⟨h.1, hmem h.2⟩
  | metadataUrl =>
    obtain ⟨count, pages, hv, hcount, hlen, hpages, hempty⟩ := h
    exact ⟨count, pages, hv, hcount, hlen, hpages.trans hsub, fun hnil => hmem (hempty hnil)⟩
  | transactionFeeCommission | bakingRewardCommission | finalizationRewardCommission =>
    obtain ⟨hlen, text, htext, hrow⟩ := h
    exact ⟨hlen, text, htext, hmem hrow⟩
  | suspended => exact h.imp (fun h => ⟨h.1, hmem h.2⟩) fun h => ⟨h.1, hmem h.2⟩

theorem FieldsShown.mono {rows rows' : List Row} {fields : List BakerField} {bs : Bytes}
    (h : FieldsShown rows fields bs) (hsub : rows.Sublist rows') :
    FieldsShown rows' fields bs := by
  induction h with
  | nil => exact .nil
  | cons hv _ ih => exact .cons (hv.mono hsub) ih

theorem FieldsShown.append {rows : List Row} {fields fields' : List BakerField} {bs cs : Bytes}
    (h : FieldsShown rows fields bs) (h' : FieldsShown rows fields' cs) :
    FieldsShown rows (fields ++ fields') (bs ++ cs) := by
  induction h with
  | nil => exact h'
  | cons hv _ ih =>
    rw [List.append_assoc]
    exact .cons hv ih

theorem FieldsShown.singleton {rows : List Row} {f : BakerField} {v : Bytes}
    (h : f.Shown v rows) : FieldsShown rows [f] v := by
  have hcons := FieldsShown.cons h .nil
  rwa [List.append_nil] at hcons

theorem FieldsShown.optional {rows : List Row} {f : BakerField} {v : Bytes}
    (h : if f.flag ctx then f.Shown v rows else v = []) :
    FieldsShown rows (flagged ctx [f]) v := by
  rw [flagged_singleton]
  split_ifs at h ⊢ with hf
  · exact .singleton h
  · rw [h]
    exact .nil

/-! ## Reading a field of the first batch -/

/-- The row of the stake. -/
def capitalRow (ctx : SignConfigureBaker) : Row :=
  if ctx.capital.stopBaking then stopBakingRow
  else row "Amount to stake" ctx.capital.displayCapital.text

/-- The row of the restake flag. -/
def restakeRow (ctx : SignConfigureBaker) : Row :=
  row "Restake earnings" ctx.capital.displayRestake.text

/-- The row of the pool status. -/
def openForDelegationRow (ctx : SignConfigureBaker) : Row :=
  row "Pool status" ctx.capital.displayOpenForDelegation.text

/-- A row that is there when the flag of its field is set. -/
def optionalRow (f : BakerField) (r : SignConfigureBaker → Row) (ctx : SignConfigureBaker) :
    List Row :=
  if f.flag ctx then [r ctx] else []

/-- The rows of the first batch. -/
def batchRows (ctx : SignConfigureBaker) : List Row :=
  optionalRow .capital capitalRow ctx ++ optionalRow .restakeEarnings restakeRow ctx ++
    optionalRow .openForDelegation openForDelegationRow ctx

/-- The context is the same but for what the stage displays. -/
def SameBaker (ctx ctx' : SignConfigureBaker) : Prop := ctx' = { ctx with display := ctx'.display }

/-- The reader hashes a field and prepares its row; the rows before it stay. -/
def ReadsField (f : BakerField) (r : SignConfigureBaker → Row)
    (before : SignConfigureBaker → List Row)
    (field : SignConfigureBaker → Bytes → App (SignConfigureBaker × Bytes)) : Prop :=
  ∀ ctx cdata s (Q : SignConfigureBaker × Bytes → World → Prop),
    (∀ ctx' rest v t, SameBaker ctx ctx' → FedOnto v s t → f.Shown v [r ctx'] →
      before ctx' = before ctx → Q (ctx', rest) t) →
    wp (field ctx cdata) Q (fun _ _ => True) s

theorem ConfigureBakerDisplay.view_inject {α : Type} [Member ConfigureBakerDisplay α] (a : α) :
    (Member.inject a : ConfigureBakerDisplay).view α = a := by
  rw [ConfigureBakerDisplay.view, read_inject]

theorem capital_setCapital (blob : ConfigureBakerCapitalRestakeOpenForDelegationBlob) :
    (ctx.setCapital blob).capital = blob := ConfigureBakerDisplay.view_inject blob

omit [Platform] in
theorem sameBaker_setCapital (blob : ConfigureBakerCapitalRestakeOpenForDelegationBlob) :
    SameBaker ctx (ctx.setCapital blob) := rfl

theorem reads_capital : ReadsField .capital capitalRow (fun _ => []) bakerCapital := by
  intro ctx cdata s Q h
  unfold bakerCapital
  rw [wp_bind, wp_throwIf]
  refine ⟨fun _ => trivial, fun hlen => ?_⟩
  rw [wp_bind, wp_u8be]
  refine ⟨fun _ => ?_, fun _ => trivial⟩
  have hlength : (cdata.take 8).length = 8 := List.length_take_of_le (not_lt.mp hlen)
  refine wp_if (fun hzero => ?_) fun hne => ?_
  · rw [wp_bind, wp_slice]
    refine ⟨fun _ => ?_, fun _ => trivial⟩
    rw [wp_bind]
    refine wp_updateHash_fed fun t ht => ?_
    rw [wp_bind, wp_advance]
    refine ⟨fun _ => ?_, fun _ => trivial⟩
    refine h _ _ (cdata.take 8) t (sameBaker_setCapital _) ht ⟨hlength, .inl ⟨hzero, ?_⟩⟩ rfl
    rw [capitalRow, capital_setCapital]
    exact List.mem_singleton.mpr rfl
  · rw [← bind_assoc, wp_bind]
    refine wp_amountToCcdDisplay le_rfl (fun _ => trivial) fun displayCapital htext => ?_
    rw [wp_bind, wp_slice]
    refine ⟨fun _ => ?_, fun _ => trivial⟩
    rw [wp_bind]
    refine wp_updateHash_fed fun t ht => ?_
    rw [wp_bind, wp_advance]
    refine ⟨fun _ => ?_, fun _ => trivial⟩
    refine h _ _ (cdata.take 8) t (sameBaker_setCapital _) ht
      ⟨hlength, .inr ⟨hne, displayCapital.text, htext, ?_⟩⟩ rfl
    rw [capitalRow, capital_setCapital]
    exact List.mem_singleton.mpr rfl

theorem reads_restake :
    ReadsField .restakeEarnings restakeRow (fun ctx => [capitalRow ctx]) bakerRestake := by
  intro ctx cdata s Q h
  unfold bakerRestake
  rw [wp_bind, wp_throwIf]
  refine ⟨fun _ => trivial, fun hlen => ?_⟩
  rw [wp_bind, wp_u8]
  refine ⟨fun _ => ?_, fun _ => trivial⟩
  rw [wp_bind]
  refine wp_updateHash_fed fun t ht => ?_
  rw [wp_bind, wp_advance]
  refine ⟨fun _ => ?_, fun _ => trivial⟩
  have hkept (text : Buf 4) : capitalRow (ctx.setCapital
      { ctx.capital with displayRestake := text }) = capitalRow ctx := by
    rw [capitalRow, capital_setCapital, capitalRow]
  have hrow (text : Bytes) (hw : 0 + (text ++ [0]).length ≤ 4) (h0 : 0 ∉ text) :
      restakeRow (ctx.setCapital { ctx.capital with
        displayRestake := ctx.capital.displayRestake.write 0 (text ++ [0]) hw }) =
      row "Restake earnings" text := by
    rw [restakeRow, capital_setCapital, Buf.text_write hw h0]
  unfold restakeText
  rw [wp_bind]
  refine wp_if (fun h0 => ?_) fun _ => wp_if (fun h1 => ?_) fun _ => trivial
  · rw [wp_pure, wp_bind, wp_memmove]
    refine ⟨fun hw => ?_, fun _ => trivial⟩
    refine h _ _ [cdata.getD 0 0] t (sameBaker_setCapital _) ht (.inl ⟨by rw [h0], ?_⟩)
      (congrArg (fun r => [r]) (hkept _))
    rw [hrow _ hw (by decide)]
    exact List.mem_singleton.mpr rfl
  · rw [wp_pure, wp_bind, wp_memmove]
    refine ⟨fun hw => ?_, fun _ => trivial⟩
    refine h _ _ [cdata.getD 0 0] t (sameBaker_setCapital _) ht (.inr ⟨by rw [h1], ?_⟩)
      (congrArg (fun r => [r]) (hkept _))
    rw [hrow _ hw (by decide)]
    exact List.mem_singleton.mpr rfl

theorem reads_openForDelegation : ReadsField .openForDelegation openForDelegationRow
    (fun ctx => [capitalRow ctx, restakeRow ctx]) bakerOpenForDelegation := by
  intro ctx cdata s Q h
  unfold bakerOpenForDelegation
  rw [wp_bind, wp_throwIf]
  refine ⟨fun _ => trivial, fun hlen => ?_⟩
  rw [wp_bind, wp_u8]
  refine ⟨fun _ => ?_, fun _ => trivial⟩
  rw [wp_bind]
  refine wp_updateHash_fed fun t ht => ?_
  rw [wp_bind, wp_advance]
  refine ⟨fun _ => ?_, fun _ => trivial⟩
  have shown (text : Bytes) (h0 : 0 ∉ text)
      (hrow : ⟨ascii "Pool status", text⟩ ∈ [row "Pool status" text] →
        BakerField.openForDelegation.Shown [cdata.getD 0 0] [row "Pool status" text]) :
      wp (memmove ctx.capital.displayOpenForDelegation 0 (text ++ [0]) >>= fun display =>
        pure (ctx.setCapital { ctx.capital with displayOpenForDelegation := display },
          cdata.drop 1)) Q (fun _ _ => True) t := by
    rw [wp_bind, wp_memmove]
    refine ⟨fun hw => ?_, fun _ => trivial⟩
    have htext : openForDelegationRow (ctx.setCapital { ctx.capital with
        displayOpenForDelegation :=
          ctx.capital.displayOpenForDelegation.write 0 (text ++ [0]) hw }) =
        row "Pool status" text := by
      rw [openForDelegationRow, capital_setCapital, Buf.text_write hw h0]
    refine h _ _ [cdata.getD 0 0] t (sameBaker_setCapital _) ht ?_ ?_
    · rw [htext]
      exact hrow (List.mem_singleton.mpr rfl)
    · refine congrArg₂ (fun a b => [a, b]) ?_ ?_
      · rw [capitalRow, capital_setCapital, capitalRow]
      · rw [restakeRow, capital_setCapital, restakeRow]
  unfold openForDelegationText
  rw [wp_bind]
  refine wp_if (fun h0 => ?_) fun _ => wp_if (fun h1 => ?_) fun _ => wp_if (fun h2 => ?_)
    fun _ => trivial
  · exact shown _ (by decide) fun hrow => .inl ⟨by rw [h0], hrow⟩
  · exact shown _ (by decide) fun hrow => .inr (.inl ⟨by rw [h1], hrow⟩)
  · exact shown _ (by decide) fun hrow => .inr (.inr ⟨by rw [h2], hrow⟩)

theorem wp_bakerField {f : BakerField} {r : SignConfigureBaker → Row}
    {before : SignConfigureBaker → List Row}
    {field : SignConfigureBaker → Bytes → App (SignConfigureBaker × Bytes)}
    {Q : SignConfigureBaker × Bytes → World → Prop} (hreads : ReadsField f r before field)
    (h : ∀ ctx' rest v t, SameBaker ctx ctx' → FedOnto v s t →
      (if f.flag ctx then f.Shown v [r ctx'] else v = []) → before ctx' = before ctx →
      Q (ctx', rest) t) :
    wp (bakerField (f.flag ctx) field ctx cdata) Q (fun _ _ => True) s := by
  unfold bakerField
  refine wp_if (fun hf => ?_) fun hf => ?_
  · exact hreads ctx cdata s Q fun ctx' rest v t hsame ht hv hbefore =>
      h ctx' rest v t hsame ht (by rwa [if_pos hf]) hbefore
  · rw [wp_pure]
    exact h ctx cdata [] s rfl ⟨⟨rfl, rfl, rfl, (List.append_nil _).symm, rfl⟩, rfl⟩
      (by rw [if_neg hf]) rfl

omit [Platform] in
theorem SameBaker.flag {ctx ctx' : SignConfigureBaker} (h : SameBaker ctx ctx') (f : BakerField) :
    f.flag ctx' = f.flag ctx := by
  rw [h]
  cases f <;> rfl

omit [Platform] in
theorem SameBaker.trans {ctx ctx' ctx'' : SignConfigureBaker} (h : SameBaker ctx ctx')
    (h' : SameBaker ctx' ctx'') : SameBaker ctx ctx'' := by
  unfold SameBaker at h h' ⊢
  rw [h', h]

theorem shown_of_optional {f : BakerField} {r : SignConfigureBaker → Row} {v : Bytes}
    {ctx ctx' : SignConfigureBaker} {rows : List Row} (hsame : SameBaker ctx ctx')
    (h : if f.flag ctx then f.Shown v [r ctx'] else v = [])
    (hsub : (optionalRow f r ctx').Sublist rows) :
    FieldsShown rows (flagged ctx' [f]) v := by
  refine .optional ?_
  unfold optionalRow at hsub
  rw [hsame.flag f] at hsub ⊢
  split_ifs at h hsub ⊢ with hf
  · exact h.mono hsub
  · exact h

/-- The three fields in front of the keys. -/
theorem wp_bakerBatch {rest : SignConfigureBaker × Bytes → App Unit} {Q : Unit → World → Prop}
    (h : ∀ ctx' cdata' bs t, SameBaker ctx ctx' → FedOnto bs s t →
      FieldsShown (batchRows ctx') (flagged ctx' BakerField.batch) bs →
      wp (rest (ctx', cdata')) Q (fun _ _ => True) t) :
    wp (bakerField ctx.hasCapital bakerCapital ctx cdata >>= fun r =>
      bakerField r.1.hasRestakeEarnings bakerRestake r.1 r.2 >>= fun r =>
      bakerField r.1.hasOpenForDelegation bakerOpenForDelegation r.1 r.2 >>= rest)
      Q (fun _ _ => True) s := by
  rw [wp_bind]
  refine wp_bakerField (f := .capital) reads_capital fun ctx₁ cdata₁ v₁ t₁ hs₁ ht₁ hv₁ _ => ?_
  rw [wp_bind]
  refine wp_bakerField (f := .restakeEarnings) reads_restake
    fun ctx₂ cdata₂ v₂ t₂ hs₂ ht₂ hv₂ hb₂ => ?_
  rw [wp_bind]
  refine wp_bakerField (f := .openForDelegation) reads_openForDelegation
    fun ctx₃ cdata₃ v₃ t₃ hs₃ ht₃ hv₃ hb₃ => ?_
  have hcapital : capitalRow ctx₃ = capitalRow ctx₁ :=
    (List.cons.inj hb₃).1.trans (List.cons.inj hb₂).1
  have hrestake : restakeRow ctx₃ = restakeRow ctx₂ :=
    (List.cons.inj (List.cons.inj hb₃).2).1
  have hsame := (hs₁.trans hs₂).trans hs₃
  refine h ctx₃ cdata₃ (v₁ ++ v₂ ++ v₃) t₃ hsame ((ht₁.trans ht₂).trans ht₃) ?_
  rw [← hcapital] at hv₁
  rw [← hrestake] at hv₂
  rw [BakerField.batch, ← List.singleton_append, ← List.singleton_append (l := [_]),
    flagged_append, flagged_append, List.append_assoc]
  refine (shown_of_optional hsame hv₁ ?_).append
    ((shown_of_optional (hs₂.trans hs₃) hv₂ ?_).append (shown_of_optional hs₃ hv₃ ?_))
  · exact (List.sublist_append_left _ _).trans (List.sublist_append_left _ _)
  · exact (List.sublist_append_right _ _).trans (List.sublist_append_left _ _)
  · exact List.sublist_append_right _ _

end Fields

end Concordium
