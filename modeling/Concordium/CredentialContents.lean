/-
  What an update of credentials consists of.

  An update adds credentials and removes others; each list stands behind its
  length, and so do the lists within a credential.  `CredentialSoFar` says what
  has been hashed of a credential at each of its places.
-/
import Concordium.CredentialPackets
import Concordium.Library.Counted

namespace Concordium

open Buffer Counted

/-! ## Contents -/

/-- An attribute that a credential reveals. -/
structure RevealedAttribute where
  tag : UInt8
  value : Items 1 UInt8
deriving DecidableEq, Repr

/-- Tag, length and value. -/
def RevealedAttribute.encode (a : RevealedAttribute) : Bytes :=
  [a.tag] ++ a.value.encode fun b => [b]

/-- Whose credential it is: the keys, the signature threshold with the
    registration id, the identity provider and the revocation threshold, and the
    revokers. -/
structure CredentialHead where
  keys : Items 1 (Buf 34)
  thresholds : Buf 54
  revokers : Items 2 (Buf 100)
deriving DecidableEq, Repr

/-- The bytes of the head. -/
def CredentialHead.encode (h : CredentialHead) : Bytes :=
  h.keys.encode Buf.bytes ++ (h.thresholds.bytes ++ h.revokers.encode Buf.bytes)

/-- A credential that an update adds. -/
structure AddedCredential where
  index : UInt8
  head : CredentialHead
  dates : Buf 6
  attributes : Items 2 RevealedAttribute
  proofs : Items 4 UInt8
deriving DecidableEq, Repr

/-- The credential behind its index. -/
def AddedCredential.body (c : AddedCredential) : Bytes :=
  c.head.encode ++ (c.dates.bytes ++
    (c.attributes.encode RevealedAttribute.encode ++ c.proofs.encode fun b => [b]))

/-- The index and the credential. -/
def AddedCredential.encode (c : AddedCredential) : Bytes := [c.index] ++ c.body

/-- An update of the credentials of an account. -/
structure CredentialUpdate where
  header : Buf 60
  added : Items 1 AddedCredential
  removed : Items 1 (Buf 48)
  threshold : UInt8
deriving DecidableEq, Repr

/-- The bytes of the whole transaction. -/
def CredentialUpdate.encode (u : CredentialUpdate) : Bytes :=
  u.header.bytes ++ ([kindUpdateCredentials] ++
    (u.added.encode AddedCredential.encode ++ (u.removed.encode Buf.bytes ++ [u.threshold])))

/-! ## The bytes determine the contents -/

theorem RevealedAttribute.readsOff : ReadsOff RevealedAttribute.encode := by
  refine ReadsOff.comp (f := fun a : RevealedAttribute => (a.tag, a.value))
    (readsOff_byte.append readsOff_byte.items) ?_
  rintro ⟨tag, value⟩ ⟨tag', value'⟩ h
  obtain ⟨rfl, rfl⟩ := Prod.mk.inj h
  rfl

theorem CredentialHead.readsOff : ReadsOff CredentialHead.encode := by
  refine ReadsOff.comp (f := fun h : CredentialHead => (h.keys, h.thresholds, h.revokers))
    (readsOff_buf.items.append (readsOff_buf.append readsOff_buf.items)) ?_
  rintro ⟨keys, thresholds, revokers⟩ ⟨keys', thresholds', revokers'⟩ h
  simp only [Prod.mk.injEq] at h
  obtain ⟨rfl, rfl, rfl⟩ := h
  rfl

theorem AddedCredential.readsOff : ReadsOff AddedCredential.encode := by
  refine ReadsOff.comp
    (f := fun c : AddedCredential => (c.index, c.head, c.dates, c.attributes, c.proofs))
    (readsOff_byte.append (CredentialHead.readsOff.append (readsOff_buf.append
      (RevealedAttribute.readsOff.items.append readsOff_byte.items)))) ?_
  rintro ⟨index, head, dates, attributes, proofs⟩ ⟨index', head', dates', attributes', proofs'⟩ h
  simp only [Prod.mk.injEq] at h
  obtain ⟨rfl, rfl, rfl, rfl, rfl⟩ := h
  rfl

/-- What has been hashed determines the update. -/
theorem CredentialUpdate.encode_injective : Function.Injective CredentialUpdate.encode := by
  intro u v h
  obtain ⟨header, added, removed, threshold⟩ := u
  obtain ⟨header', added', removed', threshold'⟩ := v
  obtain ⟨rfl, hrest⟩ := readsOff_buf h
  obtain ⟨-, hrest⟩ := readsOff_byte (a := kindUpdateCredentials) (b := kindUpdateCredentials) hrest
  obtain ⟨rfl, hrest⟩ := AddedCredential.readsOff.items hrest
  obtain ⟨rfl, hrest⟩ := readsOff_buf.items hrest
  obtain rfl := List.singleton_inj.mp hrest
  rfl

/-! ## Texts on the way -/

/-- The texts that are prepared for the rows of a credential. -/
structure CredentialTexts where
  key : Bytes
  name : Bytes
  regId : Bytes
deriving DecidableEq, Repr

/-- The texts of a context. -/
def SignCredentialDeploymentContext.texts (ctx : SignCredentialDeploymentContext) :
    CredentialTexts :=
  ⟨ctx.accountVerificationKey.text, ctx.attributeName.text, ctx.regIdCred.text⟩

/-- The label of an attribute. -/
def attributeLabel (tag : UInt8) : Bytes :=
  (attributeNames[tag.toNat]?).getD (ascii "Attribute #" ++ decimal tag.toNat)

/-- The row of a key with this text. -/
def keyTextRow (text : Bytes) : Row := row "Public key" text

/-- The row of a key. -/
def keyItemRow (key : Buf 34) : Row := keyTextRow (paginatedHex (key.bytes.drop 2))

/-- The row of an attribute. -/
def RevealedAttribute.row (a : RevealedAttribute) : Row := ⟨attributeLabel a.tag, a.value.items⟩

/-- The rows that keys and attributes are to be shown in. -/
def itemRows (keys : List (Buf 34)) (attributes : List RevealedAttribute) : List Row :=
  keys.map keyItemRow ++ attributes.map RevealedAttribute.row

namespace CredentialPlace
variable (p : CredentialPlace)

/-- The texts behind a packet that is taken. -/
def write (data : Bytes) (x : CredentialTexts) : CredentialTexts :=
  match p.state with
  | .verificationKey => { x with key := paginatedHex ((data.drop 2).take 32) }
  | .signatureThreshold => { x with regId := hexUpper ((data.drop 1).take 48) }
  | .attributeTag => { x with name := attributeLabel (data.getD 0 0) }
  | _ => x

/-- The rows of the review that a packet leads to. -/
def told (data : Bytes) (x : CredentialTexts) : List Row :=
  match p.state with
  | .verificationKey => [keyTextRow (paginatedHex ((data.drop 2).take 32))]
  | .attributeValue => [⟨x.name, data.take p.valueLength⟩]
  | .proofs => if maxCdataLength < p.proofs then []
    else [keyTextRow x.key, row "RegIdCred" x.regId]
  | _ => []

end CredentialPlace

/-! ## On the way -/

/-- The head has been read at a place. -/
structure CredentialHead.ReadAt (h : CredentialHead) (p : CredentialPlace) (x : CredentialTexts) :
    Prop where
  keys : h.keys.items ≠ []
  revokers : h.revokers.items ≠ []
  none : p.revokers = 0
  record : p.record = h.thresholds.bytes ++ toBe 2 h.revokers.items.length
  entries : p.entries = h.revokers.items.flatMap Buf.bytes
  regId : x.regId = hexUpper ((h.thresholds.bytes.drop 1).take 48)

/-- What has been hashed of a credential at a place: the keys and the attributes
    that have arrived, and all the bytes. -/
inductive CredentialSoFar (p : CredentialPlace) (x : CredentialTexts) :
    List (Buf 34) → List RevealedAttribute → Bytes → Prop where
  | length (hs : p.state = .verificationKeysLength) : CredentialSoFar p x [] [] []
  | keys {keys : List (Buf 34)} (hs : p.state = .verificationKey)
    (hfits : keys.length + p.keys < 256 ^ 1) :
    CredentialSoFar p x keys [] (begun 1 Buf.bytes keys p.keys)
  | thresholds {keys : Items 1 (Buf 34)} (hs : p.state = .signatureThreshold)
    (hkeys : keys.items ≠ []) : CredentialSoFar p x keys.items [] (keys.encode Buf.bytes)
  | revokers {keys : Items 1 (Buf 34)} {thresholds : Buf 54} {revokers : List (Buf 100)}
    (hs : p.state = .arIdentity) (hkeys : keys.items ≠ [])
    (hfits : revokers.length + p.revokers < 256 ^ 2)
    (hrecord : p.record = thresholds.bytes ++ toBe 2 (revokers.length + p.revokers))
    (hentries : p.entries = revokers.flatMap Buf.bytes)
    (hregId : x.regId = hexUpper ((thresholds.bytes.drop 1).take 48)) :
    CredentialSoFar p x keys.items []
      (keys.encode Buf.bytes ++ (thresholds.bytes ++ begun 2 Buf.bytes revokers p.revokers))
  | dates {head : CredentialHead} (hs : p.state = .credentialDates) (hat : head.ReadAt p x) :
    CredentialSoFar p x head.keys.items [] head.encode
  | tag {head : CredentialHead} {dates : Buf 6} {attributes : List RevealedAttribute}
    (hs : p.state = .attributeTag) (hat : head.ReadAt p x)
    (hfits : attributes.length + p.attributes < 256 ^ 2) :
    CredentialSoFar p x head.keys.items attributes (head.encode ++ (dates.bytes ++
      begun 2 RevealedAttribute.encode attributes p.attributes))
  | value {head : CredentialHead} {dates : Buf 6} {attributes : List RevealedAttribute}
    {tag : UInt8} (hs : p.state = .attributeValue) (hat : head.ReadAt p x)
    (hfits : attributes.length + p.attributes < 256 ^ 2) (hsome : p.attributes ≠ 0)
    (hvalue : p.valueLength < 256 ^ 1) (hname : x.name = attributeLabel tag) :
    CredentialSoFar p x head.keys.items attributes (head.encode ++ (dates.bytes ++
      (begun 2 RevealedAttribute.encode attributes p.attributes ++
        ([tag] ++ toBe 1 p.valueLength))))
  | proofsLength {head : CredentialHead} {dates : Buf 6} {attributes : Items 2 RevealedAttribute}
    (hs : p.state = .lengthOfProofs) (hat : head.ReadAt p x) :
    CredentialSoFar p x head.keys.items attributes.items (head.encode ++ (dates.bytes ++
      attributes.encode RevealedAttribute.encode))
  | proofs {head : CredentialHead} {dates : Buf 6} {attributes : Items 2 RevealedAttribute}
    {proofs : Bytes} (hs : p.state = .proofs) (hat : head.ReadAt p x)
    (hfits : proofs.length + p.proofs < 256 ^ 4) :
    CredentialSoFar p x head.keys.items attributes.items (head.encode ++ (dates.bytes ++
      (attributes.encode RevealedAttribute.encode ++ begun 4 (fun b => [b]) proofs p.proofs)))
  | done {c : AddedCredential} (hs : p.state = .newOrExisting) (hat : c.head.ReadAt p x) :
    CredentialSoFar p x c.head.keys.items c.attributes.items c.body

section Steps
variable {p : CredentialPlace} {x : CredentialTexts} {cmd : Command} {keys : List (Buf 34)}
  {attributes : List RevealedAttribute} {bs : Bytes}

/-- The bytes of a packet as a buffer. -/
def sizedBytes (data : Bytes) (k n : ℕ) (h : k + n ≤ data.length) : Buf n :=
  ⟨(data.drop k).take n, by rw [List.length_take, List.length_drop]; omega⟩

theorem itemRows_key (key : Buf 34) : itemRows (keys ++ [key]) attributes ⊆
    itemRows keys attributes ++ [keyItemRow key] := by
  intro r hr
  simp only [itemRows, List.map_append, List.mem_append, List.map_singleton] at hr ⊢
  tauto

theorem itemRows_attribute (a : RevealedAttribute) : itemRows keys (attributes ++ [a]) ⊆
    itemRows keys attributes ++ [a.row] := by
  intro r hr
  simp only [itemRows, List.map_append, List.mem_append, List.map_singleton] at hr ⊢
  tauto

/-- What becomes of a credential with a packet that is taken. -/
structure CredentialRead (p : CredentialPlace) (x : CredentialTexts) (keys : List (Buf 34))
    (attributes : List RevealedAttribute) (bs : Bytes) (cmd : Command)
    (keys' : List (Buf 34)) (attributes' : List RevealedAttribute) : Prop where
  sofar : CredentialSoFar (p.next cmd.data) (p.write cmd.data x) keys' attributes'
    (bs ++ p.part cmd)
  rows : itemRows keys' attributes' ⊆ itemRows keys attributes ++ p.told cmd.data x

theorem CredentialRead.of_next {q : CredentialPlace} {keys' : List (Buf 34)}
    {attributes' : List RevealedAttribute} {cs : Bytes} (hnext : p.next cmd.data = q)
    (hbytes : bs ++ p.part cmd = cs)
    (h : CredentialSoFar q (p.write cmd.data x) keys' attributes' cs)
    (hrows : itemRows keys' attributes' ⊆ itemRows keys attributes ++ p.told cmd.data x) :
    CredentialRead p x keys attributes bs cmd keys' attributes' := by
  subst hnext hbytes
  exact ⟨h, hrows⟩

theorem CredentialPlace.part_eq {n : ℕ} (hne : p.state ≠ .lengthOfProofs)
    (hsize : p.size cmd.data = n) : p.part cmd = cmd.data.take n := by
  unfold CredentialPlace.part
  rw [if_neg fun h => hne h.1, hsize]

theorem begun_take {α : Type} {enc : α → Bytes} {n : ℕ} {data : Bytes} (h : n ≤ data.length) :
    begun n enc [] (beNat (data.take n)) = data.take n := by
  have hlength : (data.take n).length = n := List.length_take_of_le h
  have hbegun : begun (data.take n).length enc [] (beNat (data.take n)) = data.take n :=
    begun_nil _
  rwa [hlength] at hbegun

theorem beNat_take_lt {n : ℕ} {data : Bytes} : beNat (data.take n) < 256 ^ n :=
  (beNat_lt _).trans_le (Nat.pow_le_pow_right (by decide) (List.length_take_le _ _))

theorem CredentialRead.length (hs : p.state = .verificationKeysLength) (ht : p.Takes cmd) :
    CredentialRead p x [] [] [] cmd [] [] := by
  have hsize := ht.size
  unfold CredentialPlace.size at hsize
  rw [hs] at hsize
  refine .of_next (q := { p with state := .verificationKey, keys := beNat (cmd.data.take 1) })
    ?_ ?_ (.keys rfl ?_) (List.subset_append_left _ _)
  · unfold CredentialPlace.next
    rw [hs]
  · rw [CredentialPlace.part_eq (n := 1) (by rw [hs]; decide) (by
      unfold CredentialPlace.size; rw [hs]), begun_take hsize]
    rfl
  · rw [List.length_nil, Nat.zero_add]
    exact beNat_take_lt

theorem CredentialSoFar.of_keys {q : CredentialPlace} (hs : q.state = .signatureThreshold)
    (hfits : keys.length < 256 ^ 1) (hkeys : keys ≠ []) :
    CredentialSoFar q x keys [] (begun 1 Buf.bytes keys 0) :=
  @CredentialSoFar.thresholds q x ⟨keys, hfits⟩ hs hkeys

theorem CredentialRead.key (hs : p.state = .verificationKey) (ht : p.Takes cmd)
    (hfits : keys.length + p.keys < 256 ^ 1) : ∃ keys',
    CredentialRead p x keys [] (begun 1 Buf.bytes keys p.keys) cmd keys' [] := by
  have hsize := ht.size
  have hsome := ht.fits
  unfold CredentialPlace.size at hsize
  unfold CredentialPlace.Fits at hsome
  rw [hs] at hsize hsome
  dsimp only at hsize hsome
  have hpart : p.part cmd = cmd.data.take 34 :=
    CredentialPlace.part_eq (by rw [hs]; decide) (by unfold CredentialPlace.size; rw [hs])
  have hbytes : begun 1 Buf.bytes keys p.keys ++ p.part cmd =
      begun 1 Buf.bytes (keys ++ [sizedBytes cmd.data 0 34 (by omega)]) (p.keys - 1) := by
    rw [← begun_snoc hsome, hpart]
    rfl
  have hlength : (keys ++ [sizedBytes cmd.data 0 34 (by omega)]).length + (p.keys - 1) <
      256 ^ 1 := by
    rw [List.length_append, List.length_singleton]
    omega
  have hrow : p.told cmd.data x = [keyItemRow (sizedBytes cmd.data 0 34 (by omega))] := by
    have hkey : (cmd.data.take 34).drop 2 = (cmd.data.drop 2).take 32 := List.drop_take ..
    unfold CredentialPlace.told
    rw [hs, ← hkey]
    rfl
  refine ⟨keys ++ [sizedBytes cmd.data 0 34 (by omega)], ?_⟩
  by_cases hlast : p.keys - 1 = 0
  · rw [hlast] at hbytes hlength
    refine .of_next (q := { p with state := .signatureThreshold, keys := p.keys - 1 }) ?_ hbytes
      (.of_keys rfl hlength (by simp)) (hrow ▸ itemRows_key _)
    unfold CredentialPlace.next
    rw [hs]
    dsimp only
    rw [if_pos hlast]
  · refine .of_next (q := { p with state := .verificationKey, keys := p.keys - 1 }) ?_ hbytes
      (.keys rfl hlength) (hrow ▸ itemRows_key _)
    unfold CredentialPlace.next
    rw [hs]
    dsimp only
    rw [if_neg hlast]

theorem CredentialRead.thresholds {keys : Items 1 (Buf 34)} (hs : p.state = .signatureThreshold)
    (ht : p.Takes cmd) (hkeys : keys.items ≠ []) :
    CredentialRead p x keys.items [] (keys.encode Buf.bytes) cmd keys.items [] := by
  have hsize := ht.size
  unfold CredentialPlace.size at hsize
  rw [hs] at hsize
  dsimp only at hsize
  have hpart : p.part cmd = cmd.data.take 56 :=
    CredentialPlace.part_eq (by rw [hs]; decide) (by unfold CredentialPlace.size; rw [hs])
  have hnext : p.next cmd.data = { p with
      state := .arIdentity
      revokers := arCountOf cmd.data
      record := cmd.data.take 56
      entries := []
      provider := decimal (identityProviderOf cmd.data) ++
        p.provider.drop (decimal (identityProviderOf cmd.data)).length } := by
    unfold CredentialPlace.next
    rw [hs]
  have hsplit : cmd.data.take 56 = cmd.data.take 54 ++
      begun 2 Buf.bytes ([] : List (Buf 100)) (arCountOf cmd.data) := by
    rw [arCountOf, begun_take (by rw [List.length_drop]; omega), ← List.take_add]
  have hrecord : cmd.data.take 56 = (sizedBytes cmd.data 0 54 (by omega)).bytes ++
      toBe 2 (([] : List (Buf 100)).length + arCountOf cmd.data) := by
    rw [hsplit, begun, List.flatMap_nil, List.append_nil]
    rfl
  have hregId : (p.write cmd.data x).regId =
      hexUpper (((sizedBytes cmd.data 0 54 (by omega)).bytes.drop 1).take 48) := by
    have hid : ((cmd.data.take 54).drop 1).take 48 = (cmd.data.drop 1).take 48 := by
      rw [List.drop_take, List.take_take, Nat.min_eq_left (by decide)]
    unfold CredentialPlace.write
    rw [hs, ← hid]
    rfl
  have hcount : arCountOf cmd.data < 256 ^ 2 := beNat_take_lt
  refine .of_next hnext ?_ (.revokers rfl hkeys ?_ hrecord rfl hregId)
    (List.subset_append_left _ _)
  · rw [hpart, hsplit]
    rfl
  · rwa [List.length_nil, Nat.zero_add]

theorem CredentialSoFar.of_revokers {q : CredentialPlace} {keys : Items 1 (Buf 34)}
    {thresholds : Buf 54} {revokers : List (Buf 100)} (hs : q.state = .credentialDates)
    (hkeys : keys.items ≠ []) (hfits : revokers.length < 256 ^ 2) (hrevokers : revokers ≠ [])
    (hnone : q.revokers = 0) (hrecord : q.record = thresholds.bytes ++ toBe 2 revokers.length)
    (hentries : q.entries = revokers.flatMap Buf.bytes)
    (hregId : x.regId = hexUpper ((thresholds.bytes.drop 1).take 48)) :
    CredentialSoFar q x keys.items [] (keys.encode Buf.bytes ++ (thresholds.bytes ++
      begun 2 Buf.bytes revokers 0)) :=
  @CredentialSoFar.dates q x ⟨keys, thresholds, ⟨revokers, hfits⟩⟩ hs
    ⟨hkeys, hrevokers, hnone, hrecord, hentries, hregId⟩

theorem CredentialRead.revoker {keys : Items 1 (Buf 34)} {thresholds : Buf 54}
    {revokers : List (Buf 100)} (hs : p.state = .arIdentity) (ht : p.Takes cmd)
    (hkeys : keys.items ≠ []) (hfits : revokers.length + p.revokers < 256 ^ 2)
    (hrecord : p.record = thresholds.bytes ++ toBe 2 (revokers.length + p.revokers))
    (hentries : p.entries = revokers.flatMap Buf.bytes)
    (hregId : x.regId = hexUpper ((thresholds.bytes.drop 1).take 48)) :
    CredentialRead p x keys.items [] (keys.encode Buf.bytes ++ (thresholds.bytes ++
      begun 2 Buf.bytes revokers p.revokers)) cmd keys.items [] := by
  have hsize := ht.size
  have hsome := ht.fits
  unfold CredentialPlace.size at hsize
  unfold CredentialPlace.Fits at hsome
  rw [hs] at hsize hsome
  dsimp only at hsize hsome
  have hpart : p.part cmd = cmd.data.take 100 :=
    CredentialPlace.part_eq (by rw [hs]; decide) (by unfold CredentialPlace.size; rw [hs])
  have hnext : p.next cmd.data = { p with
      state := if p.revokers = 1 then .credentialDates else .arIdentity
      revokers := p.revokers - 1
      entries := p.entries ++ cmd.data.take 100 } := by
    unfold CredentialPlace.next
    rw [hs]
  have hlength : (revokers ++ [sizedBytes cmd.data 0 100 (by omega)]).length +
      (p.revokers - 1) = revokers.length + p.revokers := by
    rw [List.length_append, List.length_singleton]
    omega
  have hbytes : begun 2 Buf.bytes revokers p.revokers ++ cmd.data.take 100 =
      begun 2 Buf.bytes (revokers ++ [sizedBytes cmd.data 0 100 (by omega)]) (p.revokers - 1) := by
    rw [← begun_snoc hsome]
    rfl
  have hentries' : p.entries ++ cmd.data.take 100 =
      (revokers ++ [sizedBytes cmd.data 0 100 (by omega)]).flatMap Buf.bytes := by
    rw [hentries, List.flatMap_append, List.flatMap_singleton]
    rfl
  have hregId' : (p.write cmd.data x).regId = x.regId := by
    unfold CredentialPlace.write
    rw [hs]
  have hne : revokers ++ [sizedBytes cmd.data 0 100 (by omega)] ≠ [] := by simp
  rw [← hlength] at hfits hrecord
  generalize revokers ++ [sizedBytes cmd.data 0 100 (by omega)] = revokers' at *
  refine .of_next hnext (show _ = keys.encode Buf.bytes ++ (thresholds.bytes ++
    begun 2 Buf.bytes revokers' (p.revokers - 1)) from ?_) ?_ (List.subset_append_left _ _)
  · rw [hpart, List.append_assoc, List.append_assoc, hbytes]
  · by_cases hlast : p.revokers = 1
    · rw [if_pos hlast]
      have hnone : p.revokers - 1 = 0 := by omega
      rw [hnone] at hfits hrecord ⊢
      exact .of_revokers rfl hkeys hfits hne rfl hrecord hentries' (hregId'.trans hregId)
    · rw [if_neg hlast]
      exact .revokers rfl hkeys hfits hrecord hentries' (hregId'.trans hregId)

theorem CredentialHead.ReadAt.same {head : CredentialHead} {q : CredentialPlace}
    {y : CredentialTexts} (h : head.ReadAt p x) (hrevokers : q.revokers = p.revokers)
    (hrecord : q.record = p.record) (hentries : q.entries = p.entries)
    (hregId : y.regId = x.regId) : head.ReadAt q y :=
  ⟨h.keys, h.revokers, hrevokers.trans h.none, hrecord.trans h.record, hentries.trans h.entries,
    hregId.trans h.regId⟩

theorem CredentialPlace.write_regId (h : p.state ≠ .signatureThreshold) (data : Bytes) :
    (p.write data x).regId = x.regId := by
  unfold CredentialPlace.write
  cases hs : p.state <;> first | rfl | exact absurd hs h

theorem CredentialSoFar.of_attributes {q : CredentialPlace} {head : CredentialHead}
    {dates : Buf 6} (hs : q.state = .lengthOfProofs) (hat : head.ReadAt q x)
    (hfits : attributes.length < 256 ^ 2) :
    CredentialSoFar q x head.keys.items attributes (head.encode ++ (dates.bytes ++
      begun 2 RevealedAttribute.encode attributes 0)) :=
  @CredentialSoFar.proofsLength q x head dates ⟨attributes, hfits⟩ hs hat

theorem CredentialRead.dates {head : CredentialHead} (hs : p.state = .credentialDates)
    (ht : p.Takes cmd) (hat : head.ReadAt p x) :
    CredentialRead p x head.keys.items [] head.encode cmd head.keys.items [] := by
  have hsize := ht.size
  unfold CredentialPlace.size at hsize
  rw [hs] at hsize
  dsimp only at hsize
  have hpart : p.part cmd = cmd.data.take 8 :=
    CredentialPlace.part_eq (by rw [hs]; decide) (by unfold CredentialPlace.size; rw [hs])
  have hnext : p.next cmd.data = { p with
      state := if beNat ((cmd.data.drop 6).take 2) = 0 then .lengthOfProofs else .attributeTag
      attributes := beNat ((cmd.data.drop 6).take 2) } := by
    unfold CredentialPlace.next
    rw [hs]
  have hsplit : cmd.data.take 8 = (sizedBytes cmd.data 0 6 (by omega)).bytes ++
      begun 2 RevealedAttribute.encode [] (beNat ((cmd.data.drop 6).take 2)) := by
    rw [begun_take (by rw [List.length_drop]; omega), show 8 = 6 + 2 from rfl, List.take_add]
    rfl
  have hcount : ([] : List RevealedAttribute).length + beNat ((cmd.data.drop 6).take 2) <
      256 ^ 2 := by
    rw [List.length_nil, Nat.zero_add]
    exact beNat_take_lt
  have hregId := CredentialPlace.write_regId (x := x) (p := p) (by rw [hs]; decide) cmd.data
  refine .of_next hnext (by rw [hpart, hsplit]) ?_ (List.subset_append_left _ _)
  generalize beNat ((cmd.data.drop 6).take 2) = count at *
  by_cases hnone : count = 0
  · subst hnone
    rw [if_pos rfl]
    exact .of_attributes rfl (hat.same rfl rfl rfl hregId) hcount
  · rw [if_neg hnone]
    exact .tag rfl (hat.same rfl rfl rfl hregId) hcount

theorem CredentialRead.tag {head : CredentialHead} {dates : Buf 6}
    (hs : p.state = .attributeTag) (ht : p.Takes cmd) (hat : head.ReadAt p x)
    (hfits : attributes.length + p.attributes < 256 ^ 2) :
    CredentialRead p x head.keys.items attributes (head.encode ++ (dates.bytes ++
      begun 2 RevealedAttribute.encode attributes p.attributes)) cmd head.keys.items
      attributes := by
  have hsize := ht.size
  have hsome := ht.fits
  unfold CredentialPlace.size at hsize
  unfold CredentialPlace.Fits at hsome
  rw [hs] at hsize hsome
  dsimp only at hsize hsome
  have hpart : p.part cmd = cmd.data.take 2 :=
    CredentialPlace.part_eq (by rw [hs]; decide) (by unfold CredentialPlace.size; rw [hs])
  have hnext : p.next cmd.data = { p with
      state := .attributeValue, valueLength := beNat ((cmd.data.drop 1).take 1) } := by
    unfold CredentialPlace.next
    rw [hs]
  have hsplit : cmd.data.take 2 = [cmd.data.getD 0 0] ++
      toBe 1 (beNat ((cmd.data.drop 1).take 1)) := by
    have hlength : toBe 1 (beNat ((cmd.data.drop 1).take 1)) = (cmd.data.drop 1).take 1 := by
      have := toBe_beNat ((cmd.data.drop 1).take 1)
      rwa [List.length_take_of_le (by rw [List.length_drop]; omega)] at this
    have hhead : cmd.data.take 1 = [cmd.data.getD 0 0] := by
      cases hdata : cmd.data with
      | nil => simp [hdata] at hsize
      | cons b rest => rfl
    rw [hlength, ← hhead, show 2 = 1 + 1 from rfl, List.take_add]
  have hname : (p.write cmd.data x).name = attributeLabel (cmd.data.getD 0 0) := by
    unfold CredentialPlace.write
    rw [hs]
  have hregId := CredentialPlace.write_regId (x := x) (p := p) (by rw [hs]; decide) cmd.data
  refine .of_next hnext (show _ = head.encode ++ (dates.bytes ++ (begun 2
    RevealedAttribute.encode attributes p.attributes ++ ([cmd.data.getD 0 0] ++
      toBe 1 (beNat ((cmd.data.drop 1).take 1))))) from ?_)
    (.value rfl (hat.same rfl rfl rfl hregId) hfits hsome beNat_take_lt hname)
    (List.subset_append_left _ _)
  rw [hpart, hsplit]
  simp only [List.append_assoc]

theorem CredentialRead.value {head : CredentialHead} {dates : Buf 6} {tag : UInt8}
    (hs : p.state = .attributeValue) (ht : p.Takes cmd) (hat : head.ReadAt p x)
    (hfits : attributes.length + p.attributes < 256 ^ 2) (hsome : p.attributes ≠ 0)
    (hvalue : p.valueLength < 256 ^ 1) (hname : x.name = attributeLabel tag) : ∃ attributes',
    CredentialRead p x head.keys.items attributes (head.encode ++ (dates.bytes ++
      (begun 2 RevealedAttribute.encode attributes p.attributes ++
        ([tag] ++ toBe 1 p.valueLength)))) cmd head.keys.items attributes' := by
  have hsize := ht.size
  unfold CredentialPlace.size at hsize
  rw [hs] at hsize
  dsimp only at hsize
  have hpart : p.part cmd = cmd.data.take p.valueLength :=
    CredentialPlace.part_eq (by rw [hs]; decide) (by unfold CredentialPlace.size; rw [hs])
  have hnext : p.next cmd.data = { p with
      state := if p.attributes - 1 = 0 then .lengthOfProofs else .attributeTag
      attributes := p.attributes - 1 } := by
    unfold CredentialPlace.next
    rw [hs]
  have hlength : (cmd.data.take p.valueLength).length = p.valueLength :=
    List.length_take_of_le hsize
  let a : RevealedAttribute := ⟨tag, ⟨cmd.data.take p.valueLength, hlength.trans_lt hvalue⟩⟩
  have ha : a.encode = [tag] ++ (toBe 1 p.valueLength ++ cmd.data.take p.valueLength) := by
    have hbytes : (cmd.data.take p.valueLength).flatMap (fun b => [b]) =
        cmd.data.take p.valueLength := by simp
    unfold RevealedAttribute.encode Items.encode begun
    rw [Nat.add_zero, hlength, hbytes]
  have hrow : p.told cmd.data x = [a.row] := by
    unfold CredentialPlace.told
    rw [hs, hname]
    rfl
  have hregId := CredentialPlace.write_regId (x := x) (p := p) (by rw [hs]; decide) cmd.data
  have hcount : (attributes ++ [a]).length + (p.attributes - 1) < 256 ^ 2 := by
    rw [List.length_append, List.length_singleton]
    omega
  refine ⟨attributes ++ [a], .of_next hnext (show _ = head.encode ++ (dates.bytes ++
    begun 2 RevealedAttribute.encode (attributes ++ [a]) (p.attributes - 1)) from ?_) ?_
    (hrow ▸ itemRows_attribute a)⟩
  · rw [hpart, ← begun_snoc hsome, ha]
    simp only [List.append_assoc]
  · generalize attributes ++ [a] = attributes' at *
    by_cases hlast : p.attributes - 1 = 0
    · rw [if_pos hlast, hlast]
      rw [hlast] at hcount
      exact .of_attributes rfl (hat.same rfl rfl rfl hregId) hcount
    · rw [if_neg hlast]
      exact .tag rfl (hat.same rfl rfl rfl hregId) hcount

theorem CredentialRead.proofsLength {head : CredentialHead} {dates : Buf 6}
    {attributes : Items 2 RevealedAttribute} (hs : p.state = .lengthOfProofs) (ht : p.Takes cmd)
    (hp2 : cmd.p2 = SignCredentialDeploymentContext.p2CredentialCredential)
    (hat : head.ReadAt p x) :
    CredentialRead p x head.keys.items attributes.items (head.encode ++ (dates.bytes ++
      attributes.encode RevealedAttribute.encode)) cmd head.keys.items attributes.items := by
  have hpart : p.part cmd = cmd.data.take 4 := by
    rw [CredentialPlace.part_length hs, if_pos hp2]
  have hnext : p.next cmd.data =
      { p with state := .proofs, proofs := beNat (cmd.data.take 4) } := by
    unfold CredentialPlace.next
    rw [hs]
  have hregId := CredentialPlace.write_regId (x := x) (p := p) (by rw [hs]; decide) cmd.data
  refine .of_next hnext (show _ = head.encode ++ (dates.bytes ++ (attributes.encode
    RevealedAttribute.encode ++ begun 4 (fun b => [b]) [] (beNat (cmd.data.take 4)))) from ?_)
    (.proofs rfl (hat.same rfl rfl rfl hregId) ?_) (List.subset_append_left _ _)
  · rw [hpart, begun_take (ht.size_length hs)]
    simp only [List.append_assoc]
  · rw [List.length_nil, Nat.zero_add]
    exact beNat_take_lt

theorem flatMap_byte (bs : Bytes) : bs.flatMap (fun b => [b]) = bs := by
  simp

theorem CredentialSoFar.of_proofs {q : CredentialPlace} {head : CredentialHead} {dates : Buf 6}
    {attributes : Items 2 RevealedAttribute} {proofs : Bytes} (index : UInt8)
    (hs : q.state = .newOrExisting) (hat : head.ReadAt q x) (hfits : proofs.length < 256 ^ 4) :
    CredentialSoFar q x head.keys.items attributes.items (head.encode ++ (dates.bytes ++
      (attributes.encode RevealedAttribute.encode ++ begun 4 (fun b => [b]) proofs 0))) :=
  @CredentialSoFar.done q x ⟨index, head, dates, attributes, ⟨proofs, hfits⟩⟩ hs hat

theorem CredentialRead.proofs {head : CredentialHead} {dates : Buf 6}
    {attributes : Items 2 RevealedAttribute} {proofs : Bytes} (hs : p.state = .proofs)
    (ht : p.Takes cmd) (hat : head.ReadAt p x) (hfits : proofs.length + p.proofs < 256 ^ 4) :
    CredentialRead p x head.keys.items attributes.items (head.encode ++ (dates.bytes ++
      (attributes.encode RevealedAttribute.encode ++ begun 4 (fun b => [b]) proofs p.proofs))) cmd
      head.keys.items attributes.items := by
  have hsize := ht.size
  unfold CredentialPlace.size at hsize
  rw [hs] at hsize
  dsimp only at hsize
  have hnext : p.next cmd.data =
      if maxCdataLength < p.proofs then { p with proofs := p.proofs - maxCdataLength }
      else { p with state := .newOrExisting } := by
    unfold CredentialPlace.next
    rw [hs]
  have hregId := CredentialPlace.write_regId (x := x) (p := p) (by rw [hs]; decide) cmd.data
  -- The chunk is as long as the place asks for.
  have chunk {n : ℕ} (hn : p.size cmd.data = n) (hlong : n ≤ cmd.data.length)
      (hleft : n ≤ p.proofs) : head.encode ++ (dates.bytes ++ (attributes.encode
        RevealedAttribute.encode ++ begun 4 (fun b => [b]) proofs p.proofs)) ++ p.part cmd =
      head.encode ++ (dates.bytes ++ (attributes.encode RevealedAttribute.encode ++
        begun 4 (fun b => [b]) (proofs ++ cmd.data.take n) (p.proofs - n))) ∧
      (proofs ++ cmd.data.take n).length + (p.proofs - n) = proofs.length + p.proofs := by
    have hpart : p.part cmd = cmd.data.take n := CredentialPlace.part_eq (by rw [hs]; decide) hn
    have hlength : (cmd.data.take n).length = n := List.length_take_of_le hlong
    refine ⟨?_, ?_⟩
    · have hbegun : begun 4 (fun b => [b]) proofs p.proofs ++
          (cmd.data.take n).flatMap (fun b => [b]) = _ := begun_append (hlength.trans_le hleft)
      rw [flatMap_byte, hlength] at hbegun
      simp only [hpart, List.append_assoc, hbegun]
    · rw [List.length_append, hlength]
      omega
  by_cases hmore : maxCdataLength < p.proofs
  · rw [if_pos hmore] at hnext hsize
    obtain ⟨hbytes, hlength⟩ := chunk (by unfold CredentialPlace.size; rw [hs]; exact if_pos hmore)
      hsize hmore.le
    refine .of_next hnext hbytes (.proofs hs (hat.same rfl rfl rfl hregId) ?_)
      (List.subset_append_left _ _)
    rwa [hlength]
  · rw [if_neg hmore] at hnext hsize
    obtain ⟨hbytes, hlength⟩ := chunk (by unfold CredentialPlace.size; rw [hs]; exact if_neg hmore)
      hsize le_rfl
    rw [Nat.sub_self] at hbytes hlength
    refine .of_next hnext hbytes (.of_proofs 0 rfl (hat.same rfl rfl rfl hregId) ?_)
      (List.subset_append_left _ _)
    rwa [← hlength] at hfits

/-- One step of the reading, whatever the place. -/
theorem CredentialSoFar.next (h : CredentialSoFar p x keys attributes bs) (ht : p.Takes cmd)
    (hp2 : cmd.p2 = SignCredentialDeploymentContext.p2CredentialCredential)
    (hchoice : p.state ≠ .newOrExisting) :
    ∃ keys' attributes', CredentialRead p x keys attributes bs cmd keys' attributes' := by
  cases h with
  | length hs => exact ⟨_, _, .length hs ht⟩
  | keys hs hfits =>
    obtain ⟨keys', hread⟩ := CredentialRead.key hs ht hfits
    exact ⟨_, _, hread⟩
  | thresholds hs hkeys => exact ⟨_, _, .thresholds hs ht hkeys⟩
  | revokers hs hkeys hfits hrecord hentries hregId =>
    exact ⟨_, _, .revoker hs ht hkeys hfits hrecord hentries hregId⟩
  | dates hs hat => exact ⟨_, _, .dates hs ht hat⟩
  | tag hs hat hfits => exact ⟨_, _, .tag hs ht hat hfits⟩
  | value hs hat hfits hsome hvalue hname =>
    obtain ⟨attributes', hread⟩ := CredentialRead.value hs ht hat hfits hsome hvalue hname
    exact ⟨_, _, hread⟩
  | proofsLength hs hat => exact ⟨_, _, .proofsLength hs ht hp2 hat⟩
  | proofs hs hat hfits => exact ⟨_, _, .proofs hs ht hat hfits⟩
  | done hs => exact absurd hs hchoice

end Steps

end Concordium
