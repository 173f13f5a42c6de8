/-
  How transactions open: `handleHeaderAndToAddress` in `tx_hash.c`, and the
  opening of those that send nothing to an account.
-/
import Concordium.HashedFields

namespace Concordium

open Buffer Wp

set_option synthInstance.maxSize 1000000
set_option synthInstance.maxHeartbeats 100000

/-- The transaction behind the path of a first packet. -/
def transactionBody (cmd : Command) : Bytes := cmd.data.drop (1 + (cmd.data.getD 0 0).toNat * 4)

/-- The header of a transaction. -/
def transactionHeader (cmd : Command) : Bytes := (transactionBody cmd).take 60

/-- The recipient of a transfer. -/
def recipientBytes (cmd : Command) : Bytes := ((transactionBody cmd).drop 61).take 32

/-- A transfer has been opened over a fresh hash: the header, the kind and the
    recipient are hashed and prepared for the screen. -/
structure TransferOpened [Platform] (first : Command) (kind : UInt8) (recipient : Bytes)
    (s t : World) : Prop where
  latch : t.latch = s.latch
  reply : t.replyPending = s.replyPending
  global : t.global = s.global
  accepted : accepted t.log = accepted s.log
  hash : t.txState.hash = transactionHeader first ++ [kind] ++ recipientBytes first
  header : HeaderShown t.accountSender (transactionHeader first)
  recipient : AddressShown recipient (recipientBytes first)

variable [Platform] {cmd : Command} {s : World}

instance {cdata : Bytes} {kind : UInt8} {dst : Buf 57} :
    Frames Inner (handleHeaderAndToAddress cdata kind dst) := by
  unfold handleHeaderAndToAddress
  infer_instance

/-- `handleHeaderAndToAddress`, with all that it consumes. -/
theorem wp_handleHeaderAndToAddress {kind : UInt8} {dst : Buf 57}
    {Q : ℕ × Buf 57 → World → Prop}
    (h : ∀ dst' t, 1 + (cmd.data.getD 0 0).toNat * 4 + 93 ≤ cmd.data.length →
      TransferOpened cmd kind dst'.text s t →
      Q (1 + (cmd.data.getD 0 0).toNat * 4 + 61 + 32, dst') t) :
    wp (handleHeaderAndToAddress cmd.data kind dst) Q (fun _ _ => True) s := by
  have hopened : wp (handleHeaderAndToAddress cmd.data kind dst) (fun r t =>
      r.1 = 1 + (cmd.data.getD 0 0).toNat * 4 + 61 + 32 ∧
      1 + (cmd.data.getD 0 0).toNat * 4 + 93 ≤ cmd.data.length ∧ t.latch = s.latch ∧
      t.replyPending = s.replyPending ∧ t.global = s.global ∧
      t.txState.hash = transactionHeader cmd ++ [kind] ++ recipientBytes cmd ∧
      HeaderShown t.accountSender (transactionHeader cmd) ∧
      AddressShown r.2.text (recipientBytes cmd)) (fun _ _ => True) s := by
    unfold handleHeaderAndToAddress
    rw [wp_bind]
    refine wp_parseDerivationPath (fun _ _ => trivial) fun dp log hdepth => ?_
    rw [wp_bind, wp_advance]
    refine ⟨fun _ => ?_, fun _ => trivial⟩
    change wp (do
      sha256Init
      let headerLength ← hashAccountTransactionHeaderAndKind (transactionBody cmd) kind
      _) _ _ _
    rw [wp_bind, wp_sha256Init, wp_bind]
    refine wp_hashAccountTransactionHeaderAndKind (fun _ _ => trivial) (fun _ _ => trivial)
      fun account log' hlength hheader _ _ => ?_
    rw [wp_bind, wp_advance]
    refine ⟨fun _ => ?_, fun _ => trivial⟩
    rw [wp_bind, wp_throwIf]
    refine ⟨fun _ => trivial, fun hlong => ?_⟩
    rw [wp_bind, wp_slice]
    refine ⟨fun _ => ?_, fun _ => trivial⟩
    rw [wp_bind, wp_updateHash, wp_bind]
    refine wp_base58Address (fun _ => trivial) (fun _ => trivial) fun dst' hshown _ => ?_
    rw [wp_pure]
    have hbody : (transactionBody cmd).length =
        cmd.data.length - (1 + (cmd.data.getD 0 0).toNat * 4) := List.length_drop
    refine ⟨rfl, ?_, rfl, rfl, rfl, ?_, hheader, hshown⟩
    · have hlong' : 32 ≤ ((transactionBody cmd).drop 61).length := not_lt.mp hlong
      rw [List.length_drop] at hlong'
      omega
    · rfl
  refine wp_mono (fun r t ht => ?_) (fun _ _ _ => trivial)
    (wp_and hopened (Frames.frames (R := Inner) s))
  obtain ⟨⟨hr, hlength, hlatch, hreply, hglobal, hhash, hheader, hshown⟩, hinner⟩ := ht
  obtain ⟨offset, dst'⟩ := r
  obtain rfl : offset = _ := hr
  exact h dst' t hlength ⟨hlatch, hreply, hglobal, hinner.accepted, hhash, hheader, hshown⟩

/-! ## The sender -/

/-- The rows show the sender of the transaction. -/
def SenderShown (first : Command) (rows : List Row) : Prop :=
  ∃ account item, HeaderShown account (transactionHeader first) ∧
    accountHeaderPairs account item ⊆ rows

theorem SenderShown.mono {first : Command} {rows rows' : List Row} (h : SenderShown first rows)
    (hsub : rows ⊆ rows') : SenderShown first rows' := by
  obtain ⟨account, item, hheader, hrows⟩ := h
  exact ⟨account, item, hheader, List.Subset.trans hrows hsub⟩

/-! ## Transactions without a recipient -/

/-- A transaction has been opened over a fresh hash. -/
structure TransactionOpened (first : Command) (kind : UInt8) (s t : World) : Prop where
  latch : t.latch = s.latch
  reply : t.replyPending = s.replyPending
  global : t.global = s.global
  accepted : Concordium.accepted t.log = Concordium.accepted s.log
  hash : t.txState.hash = transactionHeader first ++ [kind]
  header : HeaderShown t.accountSender (transactionHeader first)

instance {kind : UInt8} : Frames Inner (openTransaction cmd kind) := by
  unfold openTransaction
  infer_instance

theorem wp_openTransaction {kind : UInt8} {Q : Bytes → World → Prop}
    (h : ∀ t, TransactionOpened cmd kind s t → Q ((transactionBody cmd).drop 61) t) :
    wp (openTransaction cmd kind) Q (fun _ _ => True) s := by
  have hopened : wp (openTransaction cmd kind) (fun r t => r = (transactionBody cmd).drop 61 ∧
      t.latch = s.latch ∧ t.replyPending = s.replyPending ∧ t.global = s.global ∧
      t.txState.hash = transactionHeader cmd ++ [kind] ∧
      HeaderShown t.accountSender (transactionHeader cmd)) (fun _ _ => True) s := by
    unfold openTransaction
    rw [wp_bind]
    refine wp_parseDerivationPath (fun _ _ => trivial) fun dp log hdepth => ?_
    rw [wp_bind, wp_throwIf]
    refine ⟨fun _ => trivial, fun _ => ?_⟩
    rw [wp_bind, wp_advance]
    refine ⟨fun _ => ?_, fun _ => trivial⟩
    rw [wp_bind, wp_sha256Init, wp_bind]
    refine wp_hashAccountTransactionHeaderAndKind (fun _ _ => trivial) (fun _ _ => trivial)
      fun account log' hlength hheader _ _ => ?_
    rw [wp_bind, wp_throwIf]
    refine ⟨fun _ => trivial, fun _ => ?_⟩
    rw [wp_advance]
    exact ⟨fun _ => ⟨rfl, rfl, rfl, rfl, rfl, hheader⟩, fun _ => trivial⟩
  refine wp_mono (fun r t ht => ?_) (fun _ _ _ => trivial)
    (wp_and hopened (Frames.frames (R := Inner) s))
  obtain ⟨⟨rfl, hlatch, hreply, hglobal, hhash, hheader⟩, hinner⟩ := ht
  exact h t ⟨hlatch, hreply, hglobal, hinner.accepted, hhash, hheader⟩

end Concordium
