/-
  Fields that are hashed as they are read.
-/
import Concordium.Flows
import Concordium.Hex

namespace Concordium

open Buffer Wp

/-- `bs` has been hashed, and the flow is otherwise as it was. -/
structure HashedOnto (bs : Bytes) (s t : World) : Prop where
  latch : t.latch = s.latch
  reply : t.replyPending = s.replyPending
  global : t.global = s.global
  hash : t.txState.hash = s.txState.hash ++ bs
  accepted : accepted t.log = accepted s.log

section Fields
variable {s t : World} {E : Exception → World → Prop}

theorem HashedOnto.trans {bs cs : Bytes} {u : World} (h : HashedOnto bs s t)
    (h' : HashedOnto cs t u) : HashedOnto (bs ++ cs) s u :=
  ⟨h'.latch.trans h.latch, h'.reply.trans h.reply, h'.global.trans h.global,
    by rw [h'.hash, h.hash, List.append_assoc], h'.accepted.trans h.accepted⟩

theorem wp_updateHash_onto {bs : Bytes} {Q : Unit → World → Prop}
    (h : ∀ t, HashedOnto bs s t → Q () t) : wp (updateHash bs) Q E s := by
  rw [wp_updateHash]
  exact h _ ⟨rfl, rfl, rfl, rfl, by simp [Event.accepts]⟩

theorem wp_hashField {cdata : Bytes} {n : ℕ} {Q : Bytes × Bytes → World → Prop}
    (h : ∀ t, n ≤ cdata.length → HashedOnto (cdata.take n) s t →
      Q (cdata.take n, cdata.drop n) t)
    (hno : cdata.length < n → E (.statusWord swoIncorrectData) s) :
    wp (hashField cdata n) Q E s := by
  unfold hashField
  rw [wp_bind, wp_throwIf]
  refine ⟨hno, fun hlen => ?_⟩
  rw [wp_bind, wp_slice]
  refine ⟨fun _ => ?_, fun hover => absurd (by omega) hover⟩
  rw [wp_bind]
  refine wp_updateHash_onto fun t ht => ?_
  rw [wp_bind, wp_advance]
  exact ⟨fun hle => h t hle ht, fun hover => absurd (by omega) hover⟩

theorem wp_hashHexField {cdata : Bytes} {dst : Buf 97} {Q : Buf 97 × Bytes → World → Prop}
    (h : ∀ dst' t, 48 ≤ cdata.length → HashedOnto (cdata.take 48) s t →
      Q (dst', cdata.drop 48) t)
    (hno : cdata.length < 48 → E (.statusWord swoIncorrectData) s) :
    wp (hashHexField cdata dst) Q E s := by
  unfold hashHexField
  rw [wp_bind, wp_throwIf]
  refine ⟨hno, fun hlen => ?_⟩
  rw [wp_bind, wp_slice]
  refine ⟨fun _ => ?_, fun hover => absurd (by omega) hover⟩
  rw [wp_bind]
  refine wp_formatHexInto (by rw [List.length_take]; omega) fun text _ => ?_
  rw [wp_bind, wp_memmove]
  refine ⟨fun _ => ?_, fun hover => absurd (by decide) hover⟩
  rw [wp_bind]
  refine wp_updateHash_onto fun t ht => ?_
  rw [wp_bind, wp_advance]
  exact ⟨fun hle => h _ t hle ht, fun hover => absurd (by omega) hover⟩

end Fields

end Concordium
