/-
  What the review of a credential says about it.

  The packet with the thresholds and the revokers behind it are read off the
  packets of the flow.  Where the digits of the identity providers never get
  fewer and the counts are not zero, the review shows exactly these, and no
  packet fails for its numbers.
-/
import Concordium.CredentialDeployment

namespace Concordium

open Buffer Union Wp Runs

set_option synthInstance.maxSize 1000000
set_option synthInstance.maxHeartbeats 100000

/-! ## What the packets say -/

/-- A packet that is read by the handler of credentials. -/
def ofCredential (ins : UInt8) (cmd : Command) : Bool :=
  ins == insCredentialDeployment || cmd.p2 == SignCredentialDeploymentContext.p2CredentialCredential

/-- The packet with the thresholds of a credential. -/
def isThresholds (ins : UInt8) (cmd : Command) : Bool :=
  ofCredential ins cmd && cmd.p1 == SignCredentialDeploymentContext.p1SignatureThreshold

/-- The packet of a revoker. -/
def isRevoker (ins : UInt8) (cmd : Command) : Bool :=
  ofCredential ins cmd && cmd.p1 == SignCredentialDeploymentContext.p1ArIdentity

/-- The thresholds and the revokers behind a packet. -/
def readParts (ins : UInt8) (parts : Bytes × Bytes) (cmd : Command) : Bytes × Bytes :=
  if isThresholds ins cmd then (cmd.data.take 56, [])
  else if isRevoker ins cmd then (parts.1, parts.2 ++ cmd.data.take 100)
  else parts

/-- The thresholds and the revokers of the last credential. -/
def partsRead (ins : UInt8) (cmds : List Command) : Bytes × Bytes :=
  cmds.foldl (readParts ins) ([], [])

/-- How many digits the identity providers have. -/
def providerWidths (ins : UInt8) (cmds : List Command) : List ℕ :=
  (cmds.filter (isThresholds ins)).map fun cmd => (decimal (identityProviderOf cmd.data)).length

/-- The digits of the identity providers leave room for a terminator and never
    get fewer, and there are keys and revokers. -/
structure NumbersFit (ins : UInt8) (cmds : List Command) : Prop where
  widths : (providerWidths ins cmds).Pairwise (· ≤ ·)
  room : ∀ n ∈ providerWidths ins cmds, n ≤ 8
  revokers : ∀ cmd ∈ cmds, isThresholds ins cmd → arCountOf cmd.data ≠ 0
  keys : ∀ cmd ∈ cmds, ofCredential ins cmd →
    cmd.p1 = SignCredentialDeploymentContext.p1VerificationKeyLength →
    beNat (cmd.data.take 1) ≠ 0

section Packets
variable {ins : UInt8} {cmd : Command} {cmds : List Command} {p : CredentialPlace} {hash : Bytes}

theorem partsRead_snoc : partsRead ins (cmds ++ [cmd]) = readParts ins (partsRead ins cmds) cmd :=
  List.foldl_concat ..

theorem providerWidths_snoc : providerWidths ins (cmds ++ [cmd]) = providerWidths ins cmds ++
    if isThresholds ins cmd then [(decimal (identityProviderOf cmd.data)).length] else [] := by
  unfold providerWidths
  rw [List.filter_append, List.map_append, List.filter_singleton]
  cases isThresholds ins cmd <;> rfl

theorem NumbersFit.init (h : NumbersFit ins (cmds ++ [cmd])) : NumbersFit ins cmds where
  widths := by
    have := h.widths
    rw [providerWidths_snoc] at this
    exact (List.pairwise_append.mp this).1
  room n hn := h.room n (by rw [providerWidths_snoc]; exact List.mem_append_left _ hn)
  revokers c hc := h.revokers c (List.mem_append_left _ hc)
  keys c hc := h.keys c (List.mem_append_left _ hc)

/-! ## Places -/

/-- The digits of an identity provider, with nothing behind them. -/
def paddedProvider (record : Bytes) : Bytes :=
  if record = [] then List.replicate 9 0
  else decimal (identityProviderOf record) ++
    List.replicate (9 - (decimal (identityProviderOf record)).length) 0

/-- A place where no count stands in the way. -/
structure CredentialPlace.Counted (p : CredentialPlace) : Prop where
  keys : p.state = .verificationKey → p.keys ≠ 0
  thresholds : p.state = .signatureThreshold → p.keys = 0
  revokers : p.state = .arIdentity → p.revokers ≠ 0
  attributes : p.state = .attributeTag → p.attributes ≠ 0

/-- The place holds what the packets said. -/
structure PlaceRead (ins : UInt8) (cmds : List Command) (p : CredentialPlace) : Prop where
  record : p.record = (partsRead ins cmds).1
  entries : p.entries = (partsRead ins cmds).2
  width : p.record ≠ [] →
    (decimal (identityProviderOf p.record)).length ∈ providerWidths ins cmds
  provider : NumbersFit ins cmds → p.provider = paddedProvider p.record
  counted : NumbersFit ins cmds → p.Counted

/-- The thresholds of the credential have been read. -/
def CredentialPlace.behindThresholds (p : CredentialPlace) : Prop :=
  match p.state with
  | .arIdentity | .credentialDates | .attributeTag | .attributeValue | .lengthOfProofs | .proofs
  | .newOrExisting => True
  | .unset | .initial | .verificationKeysLength | .verificationKey | .signatureThreshold
  | .awaitingVerificationKeyConfirm => False

/-- The thresholds and the revokers are part of what was hashed. -/
structure CredentialPlace.Recorded (p : CredentialPlace) (hash : Bytes) : Prop where
  record : p.record.length = 56
  entries : p.entries.length + 100 * p.revokers = 100 * arCountOf p.record
  all : p.state ≠ .arIdentity → p.revokers = 0 ∧ p.entries ≠ []
  hashed : ∃ front back, hash = front ++ p.record ++ p.entries ++ back ∧
    (p.state = .arIdentity → back = [])

theorem identityProviderOf_take {data : Bytes} :
    identityProviderOf (data.take 56) = identityProviderOf data := by
  rw [identityProviderOf, part_of_record (by decide)]
  rfl

theorem arCountOf_take {data : Bytes} : arCountOf (data.take 56) = arCountOf data := by
  rw [arCountOf, part_of_record (by decide)]
  rfl

theorem CredentialPlace.takes_thresholds (h : p.Takes cmd) :
    cmd.p1 = SignCredentialDeploymentContext.p1SignatureThreshold ↔
      p.state = .signatureThreshold := by
  obtain ⟨hunset, hinitial, hawaiting⟩ := CredentialPlace.takes_selector h
  rw [h.selector]
  unfold CredentialPlace.selector
  cases hs : p.state <;> simp_all <;> decide

theorem CredentialPlace.takes_revoker (h : p.Takes cmd) :
    cmd.p1 = SignCredentialDeploymentContext.p1ArIdentity ↔ p.state = .arIdentity := by
  obtain ⟨hunset, hinitial, hawaiting⟩ := CredentialPlace.takes_selector h
  rw [h.selector]
  unfold CredentialPlace.selector
  cases hs : p.state <;> simp_all <;> decide

theorem isThresholds_taken (h : p.Takes cmd) (hof : ofCredential ins cmd = true) :
    isThresholds ins cmd = true ↔ p.state = .signatureThreshold := by
  rw [isThresholds, hof, Bool.true_and, beq_iff_eq, CredentialPlace.takes_thresholds h]

theorem isRevoker_taken (h : p.Takes cmd) (hof : ofCredential ins cmd = true) :
    isRevoker ins cmd = true ↔ p.state = .arIdentity := by
  rw [isRevoker, hof, Bool.true_and, beq_iff_eq, CredentialPlace.takes_revoker h]

/-- Only the packet with the thresholds and the revokers change what is
    reviewed. -/
theorem CredentialPlace.next_kept (hthresholds : p.state ≠ .signatureThreshold)
    (hrevoker : p.state ≠ .arIdentity) (data : Bytes) :
    (p.next data).record = p.record ∧ (p.next data).entries = p.entries ∧
      (p.next data).revokers = p.revokers ∧ (p.next data).provider = p.provider := by
  unfold CredentialPlace.next
  cases hs : p.state <;> dsimp only
  all_goals first
    | exact ⟨rfl, rfl, rfl, rfl⟩
    | exact absurd hs hthresholds
    | exact absurd hs hrevoker
    | split_ifs <;> exact ⟨rfl, rfl, rfl, rfl⟩

theorem CredentialPlace.next_thresholds (h : p.state = .signatureThreshold) (data : Bytes) :
    p.next data = { p with
      state := .arIdentity
      revokers := arCountOf data
      record := data.take 56
      entries := []
      provider := decimal (identityProviderOf data) ++
        p.provider.drop (decimal (identityProviderOf data)).length } := by
  unfold CredentialPlace.next
  rw [h]

theorem CredentialPlace.next_revoker (h : p.state = .arIdentity) (data : Bytes) :
    p.next data = { p with
      state := if p.revokers = 1 then .credentialDates else .arIdentity
      revokers := p.revokers - 1
      entries := p.entries ++ data.take 100 } := by
  unfold CredentialPlace.next
  rw [h]

theorem CredentialPlace.next_state (hthresholds : p.state ≠ .signatureThreshold)
    (hrevoker : p.state ≠ .arIdentity) (data : Bytes) : (p.next data).state ≠ .arIdentity := by
  unfold CredentialPlace.next
  cases hs : p.state <;> dsimp only
  all_goals first
    | exact ProtocolState.noConfusion
    | exact absurd hs hthresholds
    | exact absurd hs hrevoker
    | rw [hs]; exact ProtocolState.noConfusion
    | split_ifs <;> exact ProtocolState.noConfusion

/-! ## Numbers -/

theorem CredentialPlace.counted_of_state (hkey : p.state ≠ .verificationKey)
    (hthresholds : p.state ≠ .signatureThreshold) (hrevoker : p.state ≠ .arIdentity)
    (htag : p.state ≠ .attributeTag) : p.Counted :=
  ⟨fun h => absurd h hkey, fun h => absurd h hthresholds, fun h => absurd h hrevoker,
    fun h => absurd h htag⟩

/-- No count stands in the way behind a packet whose own count is not zero. -/
theorem CredentialPlace.Counted.next (h : p.Counted) (ht : p.Takes cmd)
    (hof : ofCredential ins cmd = true) (hfit : NumbersFit ins (cmds ++ [cmd])) :
    (p.next cmd.data).Counted := by
  have hmem : cmd ∈ cmds ++ [cmd] := List.mem_append_right _ (List.mem_singleton_self _)
  have hselector := ht.selector
  unfold CredentialPlace.selector at hselector
  have other {q : CredentialPlace} (state : ProtocolState) (hq : q.state = state)
      (hkey : state ≠ .verificationKey) (hthresholds : state ≠ .signatureThreshold)
      (hrevoker : state ≠ .arIdentity) (htag : state ≠ .attributeTag) : q.Counted :=
    CredentialPlace.counted_of_state (hq ▸ hkey) (hq ▸ hthresholds) (hq ▸ hrevoker) (hq ▸ htag)
  unfold CredentialPlace.next
  cases hs : p.state
  case verificationKeysLength =>
    rw [hs] at hselector
    exact ⟨fun _ => hfit.keys cmd hmem hof hselector, ProtocolState.noConfusion,
      ProtocolState.noConfusion, ProtocolState.noConfusion⟩
  case verificationKey =>
    dsimp only
    by_cases hk : p.keys - 1 = 0
    · rw [if_pos hk]
      exact ⟨ProtocolState.noConfusion, fun _ => hk, ProtocolState.noConfusion,
        ProtocolState.noConfusion⟩
    · rw [if_neg hk]
      exact ⟨fun _ => hk, ProtocolState.noConfusion, ProtocolState.noConfusion,
        ProtocolState.noConfusion⟩
  case signatureThreshold =>
    exact ⟨ProtocolState.noConfusion, ProtocolState.noConfusion, fun _ =>
      hfit.revokers cmd hmem ((isThresholds_taken ht hof).mpr hs), ProtocolState.noConfusion⟩
  case arIdentity =>
    dsimp only
    have hrevokers := h.revokers hs
    by_cases hk : p.revokers = 1
    · rw [if_pos hk]
      exact other .credentialDates rfl (by decide) (by decide) (by decide) (by decide)
    · rw [if_neg hk]
      refine ⟨ProtocolState.noConfusion, ProtocolState.noConfusion, fun _ => ?_,
        ProtocolState.noConfusion⟩
      dsimp only
      omega
  case credentialDates =>
    dsimp only
    by_cases hk : beNat ((cmd.data.drop 6).take 2) = 0
    · rw [if_pos hk]
      exact other .lengthOfProofs rfl (by decide) (by decide) (by decide) (by decide)
    · rw [if_neg hk]
      exact ⟨ProtocolState.noConfusion, ProtocolState.noConfusion, ProtocolState.noConfusion,
        fun _ => hk⟩
  case attributeTag =>
    exact other .attributeValue rfl (by decide) (by decide) (by decide) (by decide)
  case attributeValue =>
    dsimp only
    by_cases hk : p.attributes - 1 = 0
    · rw [if_pos hk]
      exact other .lengthOfProofs rfl (by decide) (by decide) (by decide) (by decide)
    · rw [if_neg hk]
      exact ⟨ProtocolState.noConfusion, ProtocolState.noConfusion, ProtocolState.noConfusion,
        fun _ => hk⟩
  case lengthOfProofs => exact other .proofs rfl (by decide) (by decide) (by decide) (by decide)
  case proofs =>
    dsimp only
    split_ifs
    · exact other .proofs rfl (by decide) (by decide) (by decide) (by decide)
    · exact other .newOrExisting rfl (by decide) (by decide) (by decide) (by decide)
  all_goals exact h

/-- The row of the identity provider has nothing of an earlier one behind it. -/
theorem PlaceRead.provider_next (h : PlaceRead ins cmds p) (ht : p.Takes cmd)
    (hof : ofCredential ins cmd = true) (hs : p.state = .signatureThreshold)
    (hfit : NumbersFit ins (cmds ++ [cmd])) :
    decimal (identityProviderOf cmd.data) ++
      p.provider.drop (decimal (identityProviderOf cmd.data)).length =
    paddedProvider (cmd.data.take 56) := by
  have hthresholds := (isThresholds_taken ht hof).mpr hs
  have hwidths := hfit.widths
  rw [providerWidths_snoc, if_pos hthresholds] at hwidths
  have hle := (List.pairwise_append.mp hwidths).2.2
  have hsize : 56 ≤ cmd.data.length := by
    have := ht.size
    unfold CredentialPlace.size at this
    rwa [hs] at this
  have hne : cmd.data.take 56 ≠ [] := fun hnil => by
    have := congrArg List.length hnil
    rw [List.length_take, List.length_nil] at this
    omega
  rw [paddedProvider, if_neg hne, identityProviderOf_take, h.provider hfit.init, paddedProvider]
  by_cases hrecord : p.record = []
  · rw [if_pos hrecord, List.drop_replicate]
  · rw [if_neg hrecord]
    have hold := hle _ (h.width hrecord) _ (List.mem_singleton_self _)
    rw [List.drop_append, List.drop_of_length_le hold, List.nil_append, List.drop_replicate]
    congr 2
    omega

/-- A packet that is taken leaves the place as the packets say. -/
theorem PlaceRead.next (h : PlaceRead ins cmds p) (ht : p.Takes cmd)
    (hof : ofCredential ins cmd = true) :
    PlaceRead ins (cmds ++ [cmd]) (p.next cmd.data) := by
  have hcounted (hfit : NumbersFit ins (cmds ++ [cmd])) : (p.next cmd.data).Counted :=
    (h.counted hfit.init).next ht hof hfit
  by_cases hs : p.state = .signatureThreshold
  · have hthresholds := (isThresholds_taken ht hof).mpr hs
    have hprovider := h.provider_next ht hof hs
    rw [CredentialPlace.next_thresholds hs] at hcounted ⊢
    refine ⟨?_, ?_, fun _ => ?_, hprovider, hcounted⟩
    · rw [partsRead_snoc, readParts, if_pos hthresholds]
    · rw [partsRead_snoc, readParts, if_pos hthresholds]
    · rw [providerWidths_snoc, if_pos hthresholds]
      dsimp only
      rw [identityProviderOf_take]
      exact List.mem_append_right _ (List.mem_singleton_self _)
  have hthresholds : ¬ isThresholds ins cmd = true := fun hno =>
    hs ((isThresholds_taken ht hof).mp hno)
  have hwidths : providerWidths ins (cmds ++ [cmd]) = providerWidths ins cmds := by
    rw [providerWidths_snoc, if_neg hthresholds, List.append_nil]
  by_cases hr : p.state = .arIdentity
  · have hrevoker := (isRevoker_taken ht hof).mpr hr
    rw [CredentialPlace.next_revoker hr] at hcounted ⊢
    refine ⟨?_, ?_, fun hne => hwidths ▸ h.width hne, fun hfit => h.provider hfit.init, hcounted⟩
    · rw [partsRead_snoc, readParts, if_neg hthresholds, if_pos hrevoker]
      exact h.record
    · rw [partsRead_snoc, readParts, if_neg hthresholds, if_pos hrevoker]
      exact congrArg (· ++ _) h.entries
  · have hrevoker : ¬ isRevoker ins cmd = true := fun hno => hr ((isRevoker_taken ht hof).mp hno)
    obtain ⟨hrecord, hentries, -, hprovider⟩ := CredentialPlace.next_kept hs hr cmd.data
    have hparts : partsRead ins (cmds ++ [cmd]) = partsRead ins cmds := by
      rw [partsRead_snoc, readParts, if_neg hthresholds, if_neg hrevoker]
    refine ⟨?_, ?_, ?_, ?_, hcounted⟩
    · rw [hrecord, hparts, h.record]
    · rw [hentries, hparts, h.entries]
    · rw [hrecord, hwidths]
      exact h.width
    · rw [hrecord, hprovider]
      exact fun hfit => h.provider hfit.init

theorem PlaceRead.same (h : PlaceRead ins cmds p) {q : CredentialPlace}
    (hrecord : q.record = p.record) (hentries : q.entries = p.entries)
    (hprovider : q.provider = p.provider) (hcounted : NumbersFit ins cmds → q.Counted) :
    PlaceRead ins cmds q := by
  refine ⟨hrecord.trans h.record, hentries.trans h.entries, ?_, ?_, hcounted⟩
  · rw [hrecord]
    exact h.width
  · rw [hrecord, hprovider]
    exact h.provider

theorem PlaceRead.passed (h : PlaceRead ins cmds p) (hthresholds : ¬ isThresholds ins cmd = true)
    (hrevoker : ¬ isRevoker ins cmd = true) : PlaceRead ins (cmds ++ [cmd]) p := by
  have hparts : partsRead ins (cmds ++ [cmd]) = partsRead ins cmds := by
    rw [partsRead_snoc, readParts, if_neg hthresholds, if_neg hrevoker]
  refine ⟨hparts ▸ h.record, hparts ▸ h.entries, ?_, fun hfit => h.provider hfit.init,
    fun hfit => h.counted hfit.init⟩
  rw [providerWidths_snoc, if_neg hthresholds, List.append_nil]
  exact h.width

/-- A packet that is not of the credential leaves the place as the packets
    say. -/
theorem PlaceRead.other (h : PlaceRead ins cmds p) (hof : ofCredential ins cmd = false) :
    PlaceRead ins (cmds ++ [cmd]) p :=
  h.passed (by simp [isThresholds, hof]) (by simp [isRevoker, hof])

theorem PlaceRead.empty (p : CredentialPlace) (hrecord : p.record = []) (hentries : p.entries = [])
    (hprovider : p.provider = List.replicate 9 0) (hcounted : p.Counted) : PlaceRead ins [] p := by
  refine ⟨hrecord, hentries, fun hno => absurd hrecord hno, fun _ => ?_, fun _ => hcounted⟩
  rw [hprovider, hrecord]
  rfl

/-- What is hashed of a packet goes behind the thresholds and the revokers. -/
theorem CredentialPlace.Recorded.next (h : p.behindThresholds → p.Recorded hash)
    (ht : p.Takes cmd) (hnext : (p.next cmd.data).behindThresholds) :
    (p.next cmd.data).Recorded (hash ++ p.part cmd) := by
  by_cases hs : p.state = .signatureThreshold
  · have hsize : p.size cmd.data = 56 := by unfold CredentialPlace.size; rw [hs]
    have hlength := ht.size
    rw [CredentialPlace.part_of_size (by rw [hs]; decide) hsize, CredentialPlace.next_thresholds hs]
    refine ⟨?_, ?_, fun hno => absurd rfl hno, hash, [], ?_, fun _ => rfl⟩
    · rw [List.length_take]
      omega
    · rw [arCountOf_take]
      exact Nat.zero_add _
    · rw [List.append_nil, List.append_nil]
  by_cases hr : p.state = .arIdentity
  · have hsize : p.size cmd.data = 100 := by unfold CredentialPlace.size; rw [hr]
    have hlength := ht.size
    have hfits := ht.fits
    unfold CredentialPlace.Fits at hfits
    rw [hr] at hfits
    have hbehind : p.behindThresholds := by
      unfold CredentialPlace.behindThresholds
      rw [hr]
      trivial
    obtain ⟨hrecord, hentries, -, front, back, hhash, hback⟩ := h hbehind
    rw [CredentialPlace.part_of_size (by rw [hr]; decide) hsize, CredentialPlace.next_revoker hr]
    refine ⟨hrecord, ?_, fun hno => ?_, front, [], ?_, fun _ => rfl⟩
    · dsimp only
      rw [List.length_append, List.length_take, Nat.min_eq_left (by omega)]
      change p.revokers ≠ 0 at hfits
      omega
    · dsimp only at hno ⊢
      by_cases hone : p.revokers = 1
      · refine ⟨by omega, List.append_ne_nil_of_right_ne_nil _ fun hnil => ?_⟩
        have := congrArg List.length hnil
        rw [List.length_take, List.length_nil] at this
        omega
      · exact absurd (if_neg hone) hno
    · rw [hhash, hback hr]
      simp only [List.append_nil, List.append_assoc]
  · obtain ⟨hrecord, hentries, hrevokers, -⟩ := CredentialPlace.next_kept hs hr cmd.data
    have hbehind : p.behindThresholds := by
      unfold CredentialPlace.behindThresholds CredentialPlace.next at hnext
      unfold CredentialPlace.behindThresholds
      cases hp : p.state <;> rw [hp] at hnext <;> dsimp only at hnext ⊢
      case verificationKey => split_ifs at hnext <;> exact hnext
      all_goals simp_all
    obtain ⟨hlength, hcount, hall, front, back, hhash, -⟩ := h hbehind
    refine ⟨?_, ?_, fun _ => ?_, front, back ++ p.part cmd, ?_, fun hno => ?_⟩
    · rw [hrecord, hlength]
    · rw [hentries, hrevokers, hrecord, hcount]
    · rw [hrevokers, hentries]
      exact hall hr
    · rw [hrecord, hentries, hhash, List.append_assoc]
    · exact absurd hno (CredentialPlace.next_state hs hr cmd.data)

/-! ## Rows -/

/-- The rows that say what was hashed of the thresholds and the revokers. -/
def hashedRows [Platform] (parts : Bytes × Bytes) : List Row :=
  [row "Signature threshold" (decimal (signatureThresholdOf parts.1)),
    row "AR threshold"
      (decimal (arThresholdOf parts.1) ++ ascii " out of " ++ decimal (arCountOf parts.1)),
    row "Identity provider" (decimal (identityProviderOf parts.1)),
    row "AR list hash" (hexUpper (Platform.sha256 parts.2).bytes)]

/-- The screen shows the credential whose thresholds and revokers have been
    hashed. -/
structure CredentialShown [Platform] (parts : Bytes × Bytes) (w : World) : Prop where
  record : parts.1.length = 56
  entries : parts.2.length = 100 * arCountOf parts.1
  hashed : ∃ front back, w.txState.hash = front ++ parts.1 ++ parts.2 ++ back
  rows : hashedRows parts ⊆ w.screen.rows

/-- The digits are the whole row where they leave room for a terminator. -/
theorem identityProviderText_padded {ctx : SignCredentialDeploymentContext} {record : Bytes}
    (hne : record ≠ []) (h : ctx.identityProviderIndex.bytes = paddedProvider record)
    (hroom : (decimal (identityProviderOf record)).length ≤ 8) :
    ctx.identityProviderText = decimal (identityProviderOf record) := by
  have hzeros : List.replicate (9 - (decimal (identityProviderOf record)).length) (0 : UInt8) =
      0 :: List.replicate (8 - (decimal (identityProviderOf record)).length) 0 := by
    rw [← List.replicate_succ]
    congr 1
    omega
  have hdigits : ∀ b ∈ decimal (identityProviderOf record), (b != 0) = true := fun b hb =>
    bne_iff_ne.mpr fun h0 => zero_not_mem_decimal _ (h0 ▸ hb)
  rw [SignCredentialDeploymentContext.identityProviderText, h, paddedProvider, if_neg hne, hzeros,
    List.append_assoc, List.append_assoc, List.takeWhile_append_of_pos hdigits]
  simp

theorem credentialRows_hashed [Platform] {ctx : SignCredentialDeploymentContext}
    (hat : CredentialAt p ctx) (hrecorded : p.Recorded hash) (hread : PlaceRead ins cmds p)
    (hfit : NumbersFit ins cmds) (hs : p.state ≠ .arIdentity) :
    credentialRows ctx = hashedRows (partsRead ins cmds) := by
  have hne : p.record ≠ [] := fun hnil => by
    have := hrecorded.record
    rw [hnil] at this
    cases this
  obtain ⟨hrevokers, hentries⟩ := hrecorded.all hs
  have hprovider : ctx.identityProviderText = decimal (identityProviderOf p.record) :=
    identityProviderText_padded hne (hat.provider.trans (hread.provider hfit))
      (hfit.room _ (hread.width hne))
  unfold credentialRows hashedRows
  rw [← hread.record, ← hread.entries, signatureThresholdRow, arThresholdRow, arListRow,
    hat.signatureThreshold hne, hat.arThreshold hne, hprovider, hat.digest hentries hrevokers]

theorem PlaceRead.shown [Platform] {w : World} (hread : PlaceRead ins cmds p)
    (hat : CredentialAt p (w.global.view SignCredentialDeploymentContext))
    (hrecorded : p.Recorded w.txState.hash) (hfit : NumbersFit ins cmds)
    (hs : p.state ≠ .arIdentity)
    (hrows : credentialRows (w.global.view SignCredentialDeploymentContext) ⊆ w.screen.rows) :
    CredentialShown (partsRead ins cmds) w := by
  obtain ⟨front, back, hhash, -⟩ := hrecorded.hashed
  have hcount := hrecorded.entries
  rw [(hrecorded.all hs).1] at hcount
  refine ⟨?_, ?_, ⟨front, back, ?_⟩, ?_⟩
  · rw [← hread.record]
    exact hrecorded.record
  · rw [← hread.record, ← hread.entries]
    exact hcount
  · rw [← hread.record, ← hread.entries]
    exact hhash
  · rw [← credentialRows_hashed hat hrecorded hread hfit hs]
    exact hrows

/-! ## Packets that are asked for -/

/-- What is asked of a packet besides its numbers; the choice at the end is for
    the user. -/
def CredentialPlace.Legible (p : CredentialPlace) (data : Bytes) : Prop :=
  match p.state with
  | .attributeValue => isDisplayableText (data.take p.valueLength) = true
  | .newOrExisting | .unset | .initial | .awaitingVerificationKeyConfirm => False
  | .verificationKeysLength | .verificationKey | .signatureThreshold | .arIdentity
  | .credentialDates | .attributeTag | .lengthOfProofs | .proofs => True

/-- The place asks for the packet, as far as it does not depend on numbers. -/
structure CredentialPlace.Asks (p : CredentialPlace) (cmd : Command) : Prop where
  selector : cmd.p1 = p.selector
  size : p.size cmd.data ≤ cmd.data.length
  legible : p.Legible cmd.data
  carries : cmd.data ≠ []

/-- Numbers that fit do not stand in the way. -/
theorem PlaceRead.takes (h : PlaceRead ins cmds p) (hof : ofCredential ins cmd = true)
    (hfit : NumbersFit ins (cmds ++ [cmd])) (ha : p.Asks cmd) : p.Takes cmd := by
  refine ⟨ha.selector, ha.size, ?_⟩
  have hcounted := h.counted hfit.init
  have hlegible := ha.legible
  have hselector := ha.selector
  unfold CredentialPlace.Legible at hlegible
  unfold CredentialPlace.selector at hselector
  unfold CredentialPlace.Fits
  cases hs : p.state <;> rw [hs] at hlegible hselector
  case verificationKey => exact hcounted.keys hs
  case signatureThreshold =>
    have hthresholds : isThresholds ins cmd = true := by
      rw [isThresholds, hof, hselector]
      rfl
    refine ⟨hcounted.thresholds hs, (hfit.room _ ?_).trans (by decide)⟩
    rw [providerWidths_snoc, if_pos hthresholds]
    exact List.mem_append_right _ (List.mem_singleton_self _)
  case arIdentity => exact hcounted.revokers hs
  case attributeTag => exact hcounted.attributes hs
  all_goals first | exact hlegible | exact hlegible.elim

end Packets

end Concordium
