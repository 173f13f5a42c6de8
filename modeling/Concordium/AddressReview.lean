/-
  What the review of VERIFY_ADDRESS says of the path.

  The three formats of the request are shown by three routines in one row.  With
  its label and the network the row determines the path and the counter.
-/
import Concordium.PathTexts
import Concordium.TrustRuns

namespace Concordium

open Buffer Wp

set_option synthInstance.maxSize 1000000
set_option synthInstance.maxHeartbeats 100000

/-! ## Requests -/

/-- What VERIFY_ADDRESS is asked for, by format. -/
inductive AddressRequest where
  | legacy (identity credCounter : UInt32)
  | new (mainnet : Bool) (identityProvider identity credCounter : UInt32)
  | full (nodes : List UInt32)

namespace AddressRequest

/-- The path of a request, before it is hardened. -/
def path : AddressRequest → DerivationPath
  | legacy identity _ =>
    .ofNodes [legacyPurpose, legacyCoinType, 0, 0, identity, legacyPrfKey] .legacy
  | new mainnet identityProvider identity _ =>
    .ofNodes [newPurpose, if mainnet then newMainnetCoinType else newTestnetCoinType,
      identityProvider, identity, newPrfKey] .new
  | full nodes => .ofNodes nodes .full

/-- A full path comes without a counter. -/
def credCounter : AddressRequest → UInt32
  | legacy _ credCounter | new _ _ _ credCounter => credCounter
  | full _ => 0

/-- The title of the path row. -/
def label : AddressRequest → Bytes
  | legacy .. | new .. => ascii "Identity"
  | full _ => ascii "Derivation path"

/-- The words of the path row. -/
def words : AddressRequest → List Bytes
  | legacy identity credCounter => numberWords [identity, credCounter]
  | new _ identityProvider identity credCounter =>
    numberWords [identityProvider, identity, credCounter]
  | full nodes => (DerivationPath.ofNodes nodes .full).nodes.map nodeWord

/-- The request a command carries. -/
def ofCommand (cmd : Command) : AddressRequest :=
  let index (off : ℕ) : UInt32 := .ofNat (beNat ((cmd.data.drop off).take 4))
  if cmd.p1 = p1LegacyPath then .legacy (index 0) (index 4)
  else if cmd.p1 = p1NewPath then .new (cmd.p2 == 0x00) (index 0) (index 4) (index 8)
  else .full (wireNodes (cmd.data.drop 1) (cmd.data.getD 0 0).toNat)

variable {r r' : AddressRequest}

theorem plain_words (r : AddressRequest) : PlainWords r.words := by
  cases r with
  | legacy => exact plain_numberWords _
  | new => exact plain_numberWords _
  | full => exact plain_nodeWords _

theorem words_ne_nil (h : r.path.nodes ≠ []) : r.words ≠ [] := by
  cases r with
  | legacy => exact List.cons_ne_nil _ _
  | new => exact List.cons_ne_nil _ _
  | full nodes => exact mt List.map_eq_nil_iff.mp h

theorem identity_ne_derivation : ascii "Identity" ≠ ascii "Derivation path" := by decide

/-- The network row tells the two networks of the new format apart. -/
theorem networkLabel_new {mainnet : Bool} {identityProvider identity credCounter : UInt32} :
    networkLabel (new mainnet identityProvider identity credCounter).path =
      if mainnet then ascii "Mainnet" else ascii "Testnet" := by
  cases mainnet <;> simp [networkLabel, path, DerivationPath.network, DerivationPath.ofNodes,
    DerivationPath.len, DerivationPath.node, derivationPathNodesMax] <;> decide

/-- Requests that are shown alike ask for one path and one counter. -/
theorem shown_injective (h : r.path.nodes ≠ []) (h' : r'.path.nodes ≠ [])
    (hlabel : r.label = r'.label) (htext : slashed r.words = slashed r'.words)
    (hnetwork : networkLabel r.path = networkLabel r'.path) :
    r.path.harden = r'.path.harden ∧ r.credCounter = r'.credCounter := by
  have hwords : r.words = r'.words :=
    slashed_injective r.plain_words r'.plain_words (words_ne_nil h) (words_ne_nil h') htext
  cases r with
  | legacy identity counter =>
    cases r' with
    | legacy identity' counter' =>
      have hnumbers := numberWords_injective hwords
      simp only [List.cons.injEq, and_true] at hnumbers
      obtain ⟨rfl, rfl⟩ := hnumbers
      exact ⟨rfl, rfl⟩
    | new => exact absurd (congrArg List.length hwords) (by simp [words, numberWords])
    | full => exact absurd hlabel identity_ne_derivation
  | new mainnet identityProvider identity counter =>
    cases r' with
    | legacy => exact absurd (congrArg List.length hwords) (by simp [words, numberWords])
    | new mainnet' identityProvider' identity' counter' =>
      have hnumbers := numberWords_injective hwords
      simp only [List.cons.injEq, and_true] at hnumbers
      obtain ⟨rfl, rfl, rfl⟩ := hnumbers
      rw [networkLabel_new, networkLabel_new] at hnetwork
      have hsame : mainnet = mainnet' := by
        cases mainnet <;> cases mainnet' <;> first | rfl | exact absurd hnetwork (by decide)
      exact ⟨by rw [hsame], rfl⟩
    | full => exact absurd hlabel identity_ne_derivation
  | full nodes =>
    cases r' with
    | legacy => exact absurd hlabel.symm identity_ne_derivation
    | new => exact absurd hlabel.symm identity_ne_derivation
    | full nodes' =>
      refine ⟨?_, rfl⟩
      simp only [path, DerivationPath.ofNodes, DerivationPath.harden, DerivationPath.mapNodes,
        DerivationPath.mk.injEq, and_true]
      exact nodeWords_harden hwords

end AddressRequest

/-! ## Commands -/

section Commands
variable {cmd : Command} {dp : DerivationPath} {credCounter : UInt32} {s : World}

/-- A request has the path and the counter. -/
structure AddressRequest.Names (r : AddressRequest) (dp : DerivationPath) (credCounter : UInt32) :
    Prop where
  path : dp = r.path
  credCounter : credCounter = r.credCounter
  nodes : r.path.nodes ≠ []

theorem wp_parseDerivationPathNew {cdata : Bytes} (mainnet : Bool) :
    wp (parseDerivationPathNew cdata mainnet) (fun r _ =>
      (AddressRequest.new mainnet (.ofNat (beNat ((cdata.drop 0).take 4)))
        (.ofNat (beNat ((cdata.drop 4).take 4))) (.ofNat (beNat ((cdata.drop 8).take 4)))).Names
          r.1 r.2) (fun _ _ => True) s := by
  simp only [parseDerivationPathNew, checkLc, wp_bind, wp_throwIf, wp_u4be, wp_pure, implies_true,
    true_and, and_true]
  intros
  exact ⟨rfl, rfl, List.cons_ne_nil _ _⟩

/-- What a command asks for. -/
theorem Requests.names (h : Requests cmd dp credCounter) :
    (AddressRequest.ofCommand cmd).Names dp credCounter := by
  obtain ⟨u, v, hparsed⟩ := h
  have hspec : wp (parseKeyPath cmd) (fun r _ => ∀ dp c, r = .ok (dp, c) →
      (AddressRequest.ofCommand cmd).Names dp c) (fun _ _ => True) u := by
    have refused {sw : UInt16} : ∀ (dp : DerivationPath) (c : UInt32),
        .error sw = Except.ok (dp, c) → (AddressRequest.ofCommand cmd).Names dp c := nofun
    unfold parseKeyPath
    refine wp_if (fun h1 => wp_if (fun _ => refused) fun _ => ?_) fun hlegacy =>
      wp_if (fun h1 => wp_if (fun h2 => ?_) fun h2 => wp_if (fun h3 => ?_) fun _ => refused)
        fun hnew => wp_if (fun _ => wp_if (fun _ => refused) fun _ => ?_) fun _ => refused
    · simp only [parseDerivationPathLegacy, checkLc, wp_bind, wp_throwIf, wp_u4be, wp_pure,
        implies_true, true_and, and_true]
      rintro _ _ _ _ _ dp c ⟨rfl⟩
      rw [AddressRequest.ofCommand, if_pos h1]
      exact ⟨rfl, rfl, List.cons_ne_nil _ _⟩
    · rw [wp_bind]
      refine wp_mono (fun r _ hr => ?_) (fun _ _ h => h) (wp_parseDerivationPathNew true)
      rintro dp c ⟨rfl⟩
      rw [AddressRequest.ofCommand, if_neg hlegacy, if_pos h1, h2]
      exact hr
    · rw [wp_bind]
      refine wp_mono (fun r _ hr => ?_) (fun _ _ h => h) (wp_parseDerivationPathNew false)
      rintro dp c ⟨rfl⟩
      rw [AddressRequest.ofCommand, if_neg hlegacy, if_pos h1, h3]
      exact hr
    · simp only [parseDerivationPathFull, parseDerivationPathFromBuffer, checkLc, wp_bind,
        wp_throwIf, wp_u8, wp_pure, wp_setDerivationPath, implies_true, true_and, and_true]
      intro _ _ _ _ _
      refine wp_if (fun _ => refused) fun hne => ?_
      rintro dp c ⟨rfl⟩
      rw [AddressRequest.ofCommand, if_neg hlegacy, if_neg hnew]
      exact ⟨rfl, rfl, fun hnil => hne (List.length_eq_zero_iff.mpr hnil)⟩
  exact wp_ok hspec hparsed dp credCounter rfl

/-- The path row has room for every request. -/
theorem wp_pathRow {r : AddressRequest} {Q : Bytes × Buf 104 → World → Prop}
    {E : Exception → World → Prop}
    (h : ∀ b : Buf 104, b.text = slashed r.words → Q (r.label, b) s) :
    wp (pathRow r.path r.credCounter) Q E s := by
  have compact {numbers : List UInt32} (hlen : numbers.length ≤ 3) (label : Bytes)
      (hQ : ∀ b : Buf 104, b.text = slashed (numberWords numbers) → Q (label, b) s) :
      wp (do return (label, ← memmove (Buf.zero 104) 0 (slashed (numberWords numbers) ++ [0])))
        Q E s := by
    have hwords : (slashed (numberWords numbers)).length ≤ 11 * numbers.length := by
      rw [← List.length_map (fun x : UInt32 => decimal x.toNat)]
      refine slashed_length_le fun word hmem => ?_
      obtain ⟨x, -, rfl⟩ := List.mem_map.mp hmem
      exact decimal_word_length x
    simp only [wp_bind, wp_memmove, wp_pure]
    refine ⟨fun hw => hQ _ (Buf.text_write hw (zero_not_mem_slashed (plain_numberWords _))), ?_⟩
    intro hno
    rw [List.length_append, List.length_singleton] at hno
    omega
  cases r with
  | legacy identity counter =>
    show wp (do
      let text ← pathDisplayLegacy 104 identity counter
      return (ascii "Identity", ← memmove (Buf.zero 104) 0 text)) Q E s
    rw [wp_bind]
    exact wp_pathDisplayLegacy (by decide) (compact (by simp) _ h)
  | new mainnet identityProvider identity counter =>
    show wp (do
      let text ← pathDisplayNew 104 identityProvider identity counter
      return (ascii "Identity", ← memmove (Buf.zero 104) 0 text)) Q E s
    rw [wp_bind]
    exact wp_pathDisplayNew (by decide) (compact (by simp) _ h)
  | full nodes =>
    show wp (do return (ascii "Derivation path",
      ← pathDisplayFull (Buf.zero 104) (DerivationPath.ofNodes nodes .full))) Q E s
    rw [wp_bind]
    exact wp_pathDisplayFull (by decide) h

end Commands

/-! ## Reviews -/

section Reviews
variable [Platform] {w w' : World} {cmd : Command} {s : World} {dp : DerivationPath}
  {network : DerivationPathNetwork} {credCounter : UInt32}

/-- The rows in front of the address. -/
def pathRows (ctx : VerifyAddressContext) : List Row :=
  let rows : List Row := [⟨ctx.displayLabel.text, ctx.display.text⟩, row "Network" ctx.network.text]
  match Platform.backend with
  | .nbgl => line "Verify Address" "" :: rows
  | .bagl => rows

/-- The review is that of a path and its rows. -/
structure PathReviewed (ctx : VerifyAddressContext) (dp : DerivationPath) (t : World) : Prop where
  rows : t.screen.rows.dropLast = pathRows ctx
  path : t.derivationPath = dp

theorem wp_uiVerifyAddress_rows :
    wp uiVerifyAddress (fun _ t => PathReviewed (s.global.view VerifyAddressContext)
      s.derivationPath t) (fun _ _ => True) s := by
  unfold uiVerifyAddress
  simp only [wp_bind, wp_getCtx]
  cases hb : (Platform.backend : Backend) with
  | nbgl =>
    rw [wp_showScreen]
    exact ⟨by rw [pathRows, hb]; rfl, rfl⟩
  | bagl =>
    rw [wp_showScreen]
    exact ⟨by rw [pathRows, hb]; rfl, rfl⟩

theorem reviewAddress_rows (hpath : s.derivationPath = dp) :
    wp (reviewAddress dp network credCounter) (fun _ t => t.replyPending = true →
      PathReviewed (s.global.view VerifyAddressContext) dp t) (fun _ _ => True) s := by
  have review {u : World} (hctx : ∃ address, u.global.view VerifyAddressContext =
      { s.global.view VerifyAddressContext with address := address })
      (hu : u.derivationPath = dp) : wp uiVerifyAddress (fun _ t => t.replyPending = true →
        PathReviewed (s.global.view VerifyAddressContext) dp t) (fun _ _ => True) u := by
    obtain ⟨address, hctx⟩ := hctx
    refine wp_mono (fun _ t ht _ => ?_) (fun _ _ _ => trivial) wp_uiVerifyAddress_rows
    rw [hctx, hu] at ht
    exact ⟨ht.rows, ht.path⟩
  have bound {u : World} {ctx : VerifyAddressContext} {found : Option (Buf 65)}
      (hctx : ∃ address, ctx = { s.global.view VerifyAddressContext with address := address })
      (hu : u.derivationPath = dp) : wp (reviewBoundAddress ctx found)
        (fun _ t => t.replyPending = true →
          PathReviewed (s.global.view VerifyAddressContext) dp t) (fun _ _ => True) u := by
    obtain ⟨before, rfl⟩ := hctx
    cases found with
    | none => exact wp_refuseAddress
    | some address =>
      rw [reviewBoundAddress, wp_bind, wp_setCtx]
      exact review ⟨address, by rw [InstructionContext.view_inject]⟩ hu
  unfold reviewAddress
  rw [wp_bind, wp_get]
  refine wp_if (fun _ => ?_) fun _ => ?_
  · rw [wp_bind, clearTrustedNameBinding, wp_modify]
    exact wp_refuseAddress
  cases hnames : s.trusted.valid && dp.variant == .full with
  | false =>
    simp only [Bool.not_false, if_true, wp_bind, wp_getCtx]
    refine wp_reads _ (fun address _ => ?_) fun _ _ => trivial
    rw [wp_bind, wp_setCtx]
    refine wp_if (fun _ => ?_) fun _ => ?_
    · rw [wp_bind]
      refine wp_reads _ (fun pub _ => ?_) fun _ _ => trivial
      rw [wp_bind, wp_getCtx, wp_bind, clearTrustedNameBinding, wp_modify]
      simp only [InstructionContext.view_inject]
      exact bound ⟨address, rfl⟩ hpath
    · exact review ⟨address, by rw [InstructionContext.view_inject]⟩ hpath
  | true =>
    simp only [Bool.not_true, Bool.false_eq_true, if_false]
    refine wp_if (fun _ => ?_) fun _ => ?_
    · rw [wp_bind]
      refine wp_reads _ (fun pub _ => ?_) fun _ _ => trivial
      rw [wp_bind, wp_getCtx, wp_bind, clearTrustedNameBinding, wp_modify]
      exact bound ⟨_, rfl⟩ hpath
    · exact review ⟨_, rfl⟩ hpath

/-- The rows in front of the address are those of a request. -/
def RequestShown (r : AddressRequest) (t : World) : Prop :=
  ∃ ctx : VerifyAddressContext, ctx.displayLabel.text = r.label ∧
    ctx.display.text = slashed r.words ∧ ctx.network.text = networkLabel r.path ∧
    PathReviewed ctx r.path.harden t

omit [Platform] in
theorem zero_not_mem_label (r : AddressRequest) : 0 ∉ r.label := by
  cases r with
  | legacy => exact (by decide : 0 ∉ ascii "Identity")
  | new => exact (by decide : 0 ∉ ascii "Identity")
  | full => exact (by decide : 0 ∉ ascii "Derivation path")

theorem handleVerifyAddress_rows :
    wp (handleVerifyAddress cmd) (fun _ t => t.replyPending = true →
      RequestShown (.ofCommand cmd) t) (fun _ _ => True) s := by
  unfold handleVerifyAddress
  rw [wp_bind, wp_setDerivationPath, wp_bind, wp_modifyCtx, wp_bind]
  refine wp_frames_result (R := SameGlobal) _ (fun parsed u hparsed _ => ?_) fun _ _ _ _ => trivial
  rcases parsed with sw | ⟨dp, credCounter⟩
  · rw [wp_sendRejection]
    exact fun h => absurd h Bool.false_ne_true
  · have hnames : (AddressRequest.ofCommand cmd).Names dp credCounter :=
      Requests.names ⟨_, _, hparsed⟩
    obtain ⟨rfl, rfl, -⟩ := hnames
    rw [wp_bind, pathDisplayNetwork, wp_memmove]
    refine ⟨fun hnetwork => ?_, fun _ => trivial⟩
    rw [wp_bind]
    refine wp_pathRow fun display hdisplay => ?_
    rw [wp_bind, wp_memmove]
    refine ⟨fun hlabel => ?_, fun _ => trivial⟩
    rw [wp_bind, wp_modifyCtx, wp_bind, wp_setDerivationPath]
    refine wp_mono (fun _ t ht hp => ?_) (fun _ _ _ => trivial) (reviewAddress_rows rfl)
    refine ⟨_, ?_, ?_, ?_, ht hp⟩
    · simp only [InstructionContext.view_inject]
      exact text_write_zero hlabel (zero_not_mem_label _)
    · simp only [InstructionContext.view_inject]
      exact hdisplay
    · simp only [InstructionContext.view_inject]
      exact text_write_zero hnetwork (zero_not_mem_networkLabel _)

/-- Reviews with the same rows are reviews of one path and one counter. -/
theorem RequestShown.unique {r r' : AddressRequest} {t t' : World} (h : RequestShown r t)
    (h' : RequestShown r' t') (hne : r.path.nodes ≠ []) (hne' : r'.path.nodes ≠ [])
    (hrows : t.screen.rows.dropLast = t'.screen.rows.dropLast) :
    r.path.harden = r'.path.harden ∧ r.credCounter = r'.credCounter := by
  obtain ⟨ctx, hlabel, htext, hnetwork, hreview⟩ := h
  obtain ⟨ctx', hlabel', htext', hnetwork', hreview'⟩ := h'
  rw [hreview.rows, hreview'.rows] at hrows
  have hsame : ctx.displayLabel.text = ctx'.displayLabel.text ∧
      ctx.display.text = ctx'.display.text ∧ ctx.network.text = ctx'.network.text := by
    unfold pathRows row at hrows
    cases hb : (Platform.backend : Backend) <;> rw [hb] at hrows <;> simpa [and_assoc] using hrows
  obtain ⟨h1, h2, h3⟩ := hsame
  exact AddressRequest.shown_injective hne hne' (hlabel.symm.trans (h1.trans hlabel'))
    (htext.symm.trans (h2.trans htext')) (hnetwork.symm.trans (h3.trans hnetwork'))

/-- A VERIFY_ADDRESS command that has come to a review. -/
structure AddressReviewed (w : World) (cmd : Command) (w' : World) : Prop where
  ins : cmd.ins = insVerifyAddress
  step : step w (.apdu cmd) = some w'
  pending : w'.replyPending = true

/-- The path and the counter that a review was made with. -/
structure AddressUsed (dp : DerivationPath) (credCounter : UInt32) (w : World) (cmd : Command)
    (w' : World) : Prop where
  requested : ∃ requested, Requests cmd requested credCounter ∧ requested.harden = dp
  unique : ∀ requested c, Requests cmd requested c → requested.harden = dp ∧ c = credCounter
  path : w'.derivationPath = dp
  review : ∃ network, ReviewsAddress w.trusted dp network credCounter w'

theorem AddressReviewed.shown (h : AddressReviewed w cmd w') :
    RequestShown (.ofCommand cmd) w' := by
  refine of_pending_step (P := RequestShown (.ofCommand cmd)) h.step h.pending
    fun isInitialCall s _ => ?_
  rw [dispatchInstruction_verifyAddress h.ins]
  exact wp_withData (fun _ => fun hp => absurd hp Bool.false_ne_true)
    fun _ => handleVerifyAddress_rows

theorem AddressReviewed.used (h : AddressReviewed w cmd w') :
    (AddressRequest.ofCommand cmd).path.nodes ≠ [] ∧
      AddressUsed (AddressRequest.ofCommand cmd).path.harden
        (AddressRequest.ofCommand cmd).credCounter w cmd w' := by
  obtain ⟨-, dp, credCounter, hrequest, hreview⟩ := verifyAddress_step h.ins h.step h.pending
  obtain ⟨rfl, rfl, hne⟩ := hrequest.names
  obtain ⟨_, -, -, -, hshown⟩ := h.shown
  refine ⟨hne, ⟨_, hrequest, rfl⟩, fun requested c hother => ?_, hshown.path, _, hreview⟩
  obtain ⟨rfl, rfl, -⟩ := hother.names
  exact ⟨rfl, rfl⟩

/-- Reviews with the same label, path and network were made with one path and one
    counter, and the path row of every request is complete. -/
theorem address_review :
    (∀ w₁ cmd₁ w₁' w₂ cmd₂ w₂', AddressReviewed w₁ cmd₁ w₁' → AddressReviewed w₂ cmd₂ w₂' →
      w₁'.screen.rows.dropLast = w₂'.screen.rows.dropLast →
      ∃ dp credCounter, AddressUsed dp credCounter w₁ cmd₁ w₁' ∧
        AddressUsed dp credCounter w₂ cmd₂ w₂') ∧
    ∀ cmd dp credCounter s, Requests cmd dp credCounter → ∃ display : Buf 104,
      pathRow dp credCounter s = .ok ((AddressRequest.ofCommand cmd).label, display) s ∧
        display.text = slashed (AddressRequest.ofCommand cmd).words := by
  constructor
  · intro w₁ cmd₁ w₁' w₂ cmd₂ w₂' h₁ h₂ hrows
    obtain ⟨hne₁, hused₁⟩ := h₁.used
    obtain ⟨hne₂, hused₂⟩ := h₂.used
    obtain ⟨hpath, hcounter⟩ := h₁.shown.unique h₂.shown hne₁ hne₂ hrows
    exact ⟨_, _, hused₁, by rw [hpath, hcounter]; exact hused₂⟩
  · intro cmd dp credCounter s h
    obtain ⟨rfl, rfl, -⟩ := h.names
    have hrow : wp (pathRow (AddressRequest.ofCommand cmd).path
        (AddressRequest.ofCommand cmd).credCounter)
        (fun r t => ∃ display : Buf 104, r = ((AddressRequest.ofCommand cmd).label, display) ∧
          t = s ∧ display.text = slashed (AddressRequest.ofCommand cmd).words)
        (fun _ _ => False) s :=
      wp_pathRow fun display htext => ⟨display, rfl, rfl, htext⟩
    unfold wp at hrow
    cases hr : pathRow (AddressRequest.ofCommand cmd).path
        (AddressRequest.ofCommand cmd).credCounter s with
    | ok r t =>
      rw [hr] at hrow
      obtain ⟨display, rfl, rfl, htext⟩ := hrow
      exact ⟨display, rfl, htext⟩
    | error e t =>
      rw [hr] at hrow
      exact hrow.elim

end Reviews

/-! ## Two reviews that look alike -/

/-- The path of the keys with the hardened bits written out. -/
def verifyHardenedPathCommand : Command :=
  ⟨insVerifyAddress, p1FullPath, 0,
    6 :: [44, 919, 2, 3, 0, 5].flatMap fun n => toBe 4 (hardenedBit.toNat + n), by decide⟩

/-- The reviews of a path with and without its hardened bits. -/
theorem address_review_hardened :
    letI : Platform := device .nbgl
    ∃ w w', AddressReviewed World.start verifyFullPathCommand w ∧
      AddressReviewed World.start verifyHardenedPathCommand w' ∧
      w.screen.rows.dropLast = w'.screen.rows.dropLast ∧
      (∃ dp credCounter, AddressUsed dp credCounter World.start verifyFullPathCommand w ∧
        AddressUsed dp credCounter World.start verifyHardenedPathCommand w') ∧
      ∃ dp credCounter, ∃ display : Buf 104, Requests verifyHardenedPathCommand dp credCounter ∧
        pathRow dp credCounter w' = .ok (ascii "Derivation path", display) w' ∧
        display.text = ascii "44'/919'/2'/3'/0'/5'" := by
  let : Platform := device .nbgl
  have hrun : (step World.start (.apdu verifyFullPathCommand)).any (fun w => w.replyPending &&
      (step World.start (.apdu verifyHardenedPathCommand)).any fun w' => w'.replyPending &&
        decide (w.screen.rows.dropLast = w'.screen.rows.dropLast)) = true := by
    decide +kernel
  obtain ⟨w, hw, hcheck⟩ := (Option.any_eq_true _ _).mp hrun
  obtain ⟨hp, hcheck⟩ := Bool.and_eq_true_iff.mp hcheck
  obtain ⟨w', hw', hcheck⟩ := (Option.any_eq_true _ _).mp hcheck
  obtain ⟨hp', hrows⟩ := Bool.and_eq_true_iff.mp hcheck
  have hreviewed : AddressReviewed World.start verifyFullPathCommand w := ⟨rfl, hw, hp⟩
  have hreviewed' : AddressReviewed World.start verifyHardenedPathCommand w' := ⟨rfl, hw', hp'⟩
  obtain ⟨dp, credCounter, hused, hused'⟩ :=
    address_review.1 _ _ _ _ _ _ hreviewed hreviewed' (of_decide_eq_true hrows)
  obtain ⟨requested, hrequest, -⟩ := hused'.requested
  obtain ⟨display, hrow, htext⟩ := address_review.2 _ _ _ w' hrequest
  exact ⟨w, w', hreviewed, hreviewed', of_decide_eq_true hrows, ⟨dp, credCounter, hused, hused'⟩,
    requested, credCounter, display, hrequest, hrow, htext.trans (by decide +kernel)⟩

end Concordium
