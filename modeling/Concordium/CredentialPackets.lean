/-
  How a credential is read.

  A credential arrives in packets, each taken in one state only.
  `CredentialPlace` is where the reading has come to, as far as the data of the
  packets decides it, with the fields that are reviewed at the end.
-/
import Concordium.HashedFields
import Concordium.Library.Runs

namespace Concordium

open Buffer Union Wp Runs

/-! ## Places -/

/-- Where the reading of a credential has come to. -/
structure CredentialPlace where
  state : ProtocolState := .verificationKeysLength
  keys : ℕ := 0
  revokers : ℕ := 0
  attributes : ℕ := 0
  valueLength : ℕ := 0
  proofs : ℕ := 0
  /-- What was hashed of the packet with the thresholds. -/
  record : Bytes := []
  /-- The revokers hashed since. -/
  entries : Bytes := []
  /-- The buffer of the identity provider's digits. -/
  provider : Bytes := List.replicate 9 0
deriving DecidableEq, Repr

/-! The parts of the packet with the thresholds. -/

/-- The signature threshold. -/
def signatureThresholdOf (record : Bytes) : ℕ := beNat (record.take 1)

/-- The identity provider. -/
def identityProviderOf (record : Bytes) : ℕ := beNat ((record.drop 49).take 4)

/-- The threshold of the anonymity revokers. -/
def arThresholdOf (record : Bytes) : ℕ := beNat ((record.drop 53).take 1)

/-- Their number. -/
def arCountOf (record : Bytes) : ℕ := beNat ((record.drop 54).take 2)

namespace CredentialPlace
variable (p : CredentialPlace)

/-- The place behind a packet; reviews on the way have been accepted. -/
def next (data : Bytes) : CredentialPlace :=
  match p.state with
  | .verificationKeysLength => { p with state := .verificationKey, keys := beNat (data.take 1) }
  | .verificationKey =>
    { p with
      state := if p.keys - 1 = 0 then .signatureThreshold else .verificationKey
      keys := p.keys - 1 }
  | .signatureThreshold =>
    { p with
      state := .arIdentity
      revokers := arCountOf data
      record := data.take 56
      entries := []
      provider := decimal (identityProviderOf data) ++
        p.provider.drop (decimal (identityProviderOf data)).length }
  | .arIdentity =>
    { p with
      state := if p.revokers = 1 then .credentialDates else .arIdentity
      revokers := p.revokers - 1
      entries := p.entries ++ data.take 100 }
  | .credentialDates =>
    { p with
      state := if beNat ((data.drop 6).take 2) = 0 then .lengthOfProofs else .attributeTag
      attributes := beNat ((data.drop 6).take 2) }
  | .attributeTag =>
    { p with state := .attributeValue, valueLength := beNat ((data.drop 1).take 1) }
  | .attributeValue =>
    { p with
      state := if p.attributes - 1 = 0 then .lengthOfProofs else .attributeTag
      attributes := p.attributes - 1 }
  | .lengthOfProofs => { p with state := .proofs, proofs := beNat (data.take 4) }
  | .proofs =>
    if maxCdataLength < p.proofs then { p with proofs := p.proofs - maxCdataLength }
    else { p with state := .newOrExisting }
  | .newOrExisting | .unset | .initial | .awaitingVerificationKeyConfirm => p

/-- The bytes that a packet must carry. -/
def size (data : Bytes) : ℕ :=
  match p.state with
  | .verificationKeysLength => 1
  | .verificationKey => 34
  | .signatureThreshold => 56
  | .arIdentity => 100
  | .credentialDates => 8
  | .attributeTag => 2
  | .attributeValue => p.valueLength
  | .lengthOfProofs => 4
  | .proofs => if maxCdataLength < p.proofs then maxCdataLength else p.proofs
  | .newOrExisting => if data.take 1 = [0] then 9 else 33
  | .unset | .initial | .awaitingVerificationKeyConfirm => 0

/-- What is hashed of a packet. -/
def part (cmd : Command) : Bytes :=
  if p.state = .lengthOfProofs ∧ cmd.p2 ≠ SignCredentialDeploymentContext.p2CredentialCredential
  then [] else cmd.data.take (p.size cmd.data)

/-- The one value of `P1` that the place takes. -/
def selector : UInt8 :=
  match p.state with
  | .verificationKeysLength => SignCredentialDeploymentContext.p1VerificationKeyLength
  | .verificationKey | .awaitingVerificationKeyConfirm =>
    SignCredentialDeploymentContext.p1VerificationKey
  | .signatureThreshold => SignCredentialDeploymentContext.p1SignatureThreshold
  | .arIdentity => SignCredentialDeploymentContext.p1ArIdentity
  | .credentialDates => SignCredentialDeploymentContext.p1CredentialDates
  | .attributeTag => SignCredentialDeploymentContext.p1AttributeTag
  | .attributeValue => SignCredentialDeploymentContext.p1AttributeValue
  | .lengthOfProofs => SignCredentialDeploymentContext.p1LengthOfProofs
  | .proofs => SignCredentialDeploymentContext.p1Proofs
  | .newOrExisting => SignCredentialDeploymentContext.p1NewOrExisting
  | .unset | .initial => SignCredentialDeploymentContext.p1InitialPacket

/-- What is asked of the contents of a packet. -/
def Fits (data : Bytes) : Prop :=
  match p.state with
  | .verificationKey => p.keys ≠ 0
  | .signatureThreshold => p.keys = 0 ∧ (decimal (identityProviderOf data)).length ≤ 9
  | .arIdentity => p.revokers ≠ 0
  | .attributeTag => p.attributes ≠ 0
  | .attributeValue => isDisplayableText (data.take p.valueLength) = true
  | .newOrExisting => data.take 1 = [0] ∨ data.take 1 = [1]
  | .unset | .initial | .awaitingVerificationKeyConfirm => False
  | .verificationKeysLength | .credentialDates | .lengthOfProofs | .proofs => True

/-- A packet that is taken here. -/
structure Takes (cmd : Command) : Prop where
  selector : cmd.p1 = p.selector
  size : p.size cmd.data ≤ cmd.data.length
  fits : p.Fits cmd.data

end CredentialPlace

theorem CredentialPlace.next_initial {p : CredentialPlace} (h : p.state ≠ .initial)
    (data : Bytes) : (p.next data).state ≠ .initial := by
  unfold CredentialPlace.next
  cases hs : p.state <;> dsimp only
  all_goals first
    | exact ProtocolState.noConfusion
    | exact absurd hs h
    | rw [hs]; exact ProtocolState.noConfusion
    | split_ifs <;> exact ProtocolState.noConfusion

/-! ## Lists of packets -/

section Packets
variable {p : CredentialPlace} {cmd : Command} {cmds cmds' : List Command}

/-- The place behind some packets. -/
def placeAfter (p : CredentialPlace) (cmds : List Command) : CredentialPlace :=
  cmds.foldl (fun p cmd => p.next cmd.data) p

/-- What is hashed of some packets. -/
def partsOf (p : CredentialPlace) : List Command → Bytes
  | [] => []
  | cmd :: cmds => p.part cmd ++ partsOf (p.next cmd.data) cmds

/-- Every packet is taken at its place. -/
def AllTaken (p : CredentialPlace) (cmds : List Command) : Prop :=
  Along (fun p cmd => some (p.next cmd.data)) CredentialPlace.Takes p cmds

@[simp] theorem placeAfter_snoc : placeAfter p (cmds ++ [cmd]) =
    (placeAfter p cmds).next cmd.data := List.foldl_concat ..

theorem placeAfter_initial (h : p.state ≠ .initial) : (placeAfter p cmds).state ≠ .initial := by
  induction cmds generalizing p with
  | nil => exact h
  | cons cmd cmds ih => exact ih (CredentialPlace.next_initial h _)

theorem partsOf_snoc : partsOf p (cmds ++ [cmd]) =
    partsOf p cmds ++ (placeAfter p cmds).part cmd := by
  induction cmds generalizing p with
  | nil => exact List.append_nil _
  | cons c cmds ih =>
    rw [List.cons_append, partsOf, partsOf, ih, List.append_assoc]
    rfl

theorem run_places : run (fun p cmd => some (p.next cmd.data)) p cmds =
    some (placeAfter p cmds) := by
  induction cmds generalizing p with
  | nil => rfl
  | cons c cmds ih => exact ih

theorem allTaken_snoc : AllTaken p (cmds ++ [cmd]) ↔
    AllTaken p cmds ∧ (placeAfter p cmds).Takes cmd := by
  unfold AllTaken
  rw [along_append]
  refine and_congr_right fun _ => ⟨fun h => (h _ run_places).1,
    fun h q hq => ⟨?_, fun _ _ => trivial⟩⟩
  rw [run_places] at hq
  exact Option.some.inj hq ▸ h

theorem allTaken_cons : AllTaken p (cmd :: cmds) ↔ p.Takes cmd ∧ AllTaken (p.next cmd.data) cmds :=
  and_congr_right fun _ => ⟨fun h => h _ rfl, fun h _ hq => Option.some.inj hq ▸ h⟩

/-! ## The length of the proofs -/

/-- Among the packets is the length of the proofs, in the form of an embedded
    credential. -/
def proofLengthHashed (cmds : List Command) : Bool :=
  cmds.any fun cmd => cmd.p1 == SignCredentialDeploymentContext.p1LengthOfProofs &&
    cmd.p2 == SignCredentialDeploymentContext.p2CredentialCredential

/-- The length of the proofs is behind. -/
def CredentialPlace.pastLength (p : CredentialPlace) : Prop :=
  p.state = .proofs ∨ p.state = .newOrExisting

theorem CredentialPlace.pastLength_next (h : p.pastLength) (data : Bytes) :
    (p.next data).pastLength := by
  unfold CredentialPlace.next
  rcases h with h | h <;> rw [h]
  · dsimp only
    split_ifs
    · exact .inl rfl
    · exact .inr rfl
  · exact .inr h

theorem CredentialPlace.part_congr {cmd' : Command} (h : p.state ≠ .lengthOfProofs)
    (hdata : cmd.data = cmd'.data) : p.part cmd = p.part cmd' := by
  unfold CredentialPlace.part
  rw [if_neg fun hp => h hp.1, if_neg fun hp => h hp.1, hdata]

theorem CredentialPlace.selector_length (h : p.state ≠ .lengthOfProofs) :
    p.selector ≠ SignCredentialDeploymentContext.p1LengthOfProofs := by
  unfold CredentialPlace.selector
  cases hs : p.state <;> first | exact absurd hs h | decide

theorem CredentialPlace.pastLength_length (h : p.state = .lengthOfProofs) {data : Bytes} :
    (p.next data).pastLength := by
  unfold CredentialPlace.next
  rw [h]
  exact .inl rfl

theorem CredentialPlace.Takes.size_length (ht : p.Takes cmd) (h : p.state = .lengthOfProofs) :
    4 ≤ cmd.data.length := by
  have := ht.size
  unfold CredentialPlace.size at this
  rwa [h] at this

theorem CredentialPlace.part_length (h : p.state = .lengthOfProofs) :
    p.part cmd = if cmd.p2 = SignCredentialDeploymentContext.p2CredentialCredential then
      cmd.data.take 4 else [] := by
  unfold CredentialPlace.part CredentialPlace.size
  rw [h]
  by_cases h2 : cmd.p2 = SignCredentialDeploymentContext.p2CredentialCredential <;> simp [h2]

theorem proofLengthHashed_length (h : p.state = .lengthOfProofs) (ht : p.Takes cmd)
    (hrest : proofLengthHashed cmds = false) : proofLengthHashed (cmd :: cmds) =
      (cmd.p2 == SignCredentialDeploymentContext.p2CredentialCredential) := by
  have hp1 : cmd.p1 = SignCredentialDeploymentContext.p1LengthOfProofs := by
    rw [ht.selector]
    unfold CredentialPlace.selector
    rw [h]
  unfold proofLengthHashed at hrest ⊢
  rw [List.any_cons, hrest, Bool.or_false, hp1]
  simp

theorem proofLengthHashed_cons (h : p.state ≠ .lengthOfProofs) (ht : p.Takes cmd) :
    proofLengthHashed (cmd :: cmds) = proofLengthHashed cmds := by
  have hp1 : (cmd.p1 == SignCredentialDeploymentContext.p1LengthOfProofs) = false := by
    rw [ht.selector]
    exact beq_eq_false_iff_ne.mpr (CredentialPlace.selector_length h)
  unfold proofLengthHashed
  rw [List.any_cons, hp1, Bool.false_and, Bool.false_or]

/-- Behind the length of the proofs, `P2` is of no account. -/
theorem parts_past (h : p.pastLength) (ht : AllTaken p cmds)
    (hdata : cmds.map Command.data = cmds'.map Command.data) :
    partsOf p cmds = partsOf p cmds' ∧ proofLengthHashed cmds = false := by
  induction cmds generalizing p cmds' with
  | nil =>
    cases cmds' with
    | nil => exact ⟨rfl, rfl⟩
    | cons => cases hdata
  | cons cmd cmds ih =>
    cases cmds' with
    | nil => cases hdata
    | cons cmd' cmds' =>
      obtain ⟨hhead, htail⟩ := List.cons.inj hdata
      have hne : p.state ≠ .lengthOfProofs := by
        rcases h with h | h <;> rw [h] <;> exact ProtocolState.noConfusion
      obtain ⟨hcmd, hrest⟩ := allTaken_cons.mp ht
      obtain ⟨hparts, hflag⟩ := ih (CredentialPlace.pastLength_next h _) hrest htail
      refine ⟨?_, (proofLengthHashed_cons hne hcmd).trans hflag⟩
      have hhead' : cmd.data = cmd'.data := hhead
      rw [partsOf, partsOf, CredentialPlace.part_congr hne hhead', hparts, hhead']

/-- Packets with the same data are hashed alike exactly if the length of the
    proofs has the same form. -/
theorem parts_eq_iff (ht : AllTaken p cmds) (ht' : AllTaken p cmds')
    (hdata : cmds.map Command.data = cmds'.map Command.data) :
    partsOf p cmds = partsOf p cmds' ↔ proofLengthHashed cmds = proofLengthHashed cmds' := by
  induction cmds generalizing p cmds' with
  | nil =>
    cases cmds' with
    | nil => exact ⟨fun _ => rfl, fun _ => rfl⟩
    | cons => cases hdata
  | cons cmd cmds ih =>
    cases cmds' with
    | nil => cases hdata
    | cons cmd' cmds' =>
      obtain ⟨hhead, htail⟩ := List.cons.inj hdata
      have hhead : cmd.data = cmd'.data := hhead
      obtain ⟨hcmd, hrest⟩ := allTaken_cons.mp ht
      obtain ⟨hcmd', hrest'⟩ := allTaken_cons.mp ht'
      rw [← hhead] at hrest'
      by_cases hp : p.state = .lengthOfProofs
      · obtain ⟨hparts, hflag⟩ := parts_past (CredentialPlace.pastLength_length hp) hrest htail
        obtain ⟨-, hflag'⟩ := parts_past (CredentialPlace.pastLength_length hp) hrest' htail.symm
        have hlength : cmd.data.take 4 ≠ [] := fun hnil => by
          have := hcmd.size_length hp
          rw [List.take_eq_nil_iff] at hnil
          rcases hnil with hnil | hnil
          · cases hnil
          · rw [hnil, List.length_nil] at this
            omega
        rw [partsOf, partsOf, ← hhead, hparts, List.append_cancel_right_eq,
          CredentialPlace.part_length hp, CredentialPlace.part_length hp, ← hhead,
          proofLengthHashed_length hp hcmd hflag, proofLengthHashed_length hp hcmd' hflag']
        by_cases h2 : cmd.p2 = SignCredentialDeploymentContext.p2CredentialCredential <;>
          by_cases h2' : cmd'.p2 = SignCredentialDeploymentContext.p2CredentialCredential <;>
          simp [h2, h2', hlength, hlength.symm]
      · rw [partsOf, partsOf, CredentialPlace.part_congr hp hhead, ← hhead,
          List.append_cancel_left_eq, ih hrest hrest' htail, proofLengthHashed_cons hp hcmd,
          proofLengthHashed_cons hp hcmd']

end Packets

end Concordium
