import RadioAdmin.Proofs.Encoding.Hex
import RadioAdmin.Transaction.Basic

/-!
# Identifiers of transactions

The node of a transaction and its number in the sequence of all can be read off its identifier:
what goes before the number has the same length for every node.
-/
namespace RadioAdmin.TransactionId

theorem eq_of_text {a b : TransactionId} (h : a.text = b.text) : a = b := by
  cases a
  cases b
  exact congrArg TransactionId.mk h

theorem toDigits_injective {m n : Nat} (h : Nat.toDigits 10 m = Nat.toDigits 10 n) : m = n := by
  rw [← Nat.ofDigitChars_ten_toDigits (n := m), h, Nat.ofDigitChars_ten_toDigits]

theorem toList_generate (node : NodeId) (sequence : UInt64) :
    (generate node sequence).text.toList =
      ("tx_".toList ++ Hex.padded 8 node.number.toNat ++ "_".toList) ++
        Nat.toDigits 10 sequence.toNat := by
  simp only [generate, NodeId.hex, String.toList_append, String.toList_ofList,
    Nat.toString_eq_repr, Nat.toList_repr]

/-- The node as eight lowercase digits in hex, and the number with its usual digits. -/
theorem text_generate (node : NodeId) (sequence : UInt64) :
    (generate node sequence).text =
      "tx_" ++ String.ofList (List.leftpad 8 '0' (Nat.toDigits 16 node.number.toNat)) ++ "_" ++
        String.ofList (Nat.toDigits 10 sequence.toNat) := by
  have hnode : node.number.toNat < 16 ^ 8 := node.number.toNat_lt
  rw [← Hex.padded_eq_leftpad 7 _ hnode]
  refine String.toList_inj.mp ?_
  rw [toList_generate]
  simp only [String.toList_append, String.toList_ofList]

/-- The text of an identifier tells the node and the number of its transaction. -/
theorem eq_of_text_generate {node other : NodeId} {m n : UInt64}
    (h : (generate node m).text = (generate other n).text) : node = other ∧ m = n := by
  have hchars : (generate node m).text.toList = (generate other n).text.toList := by rw [h]
  rw [toList_generate, toList_generate] at hchars
  have hlength : ("tx_".toList ++ Hex.padded 8 node.number.toNat ++ "_".toList).length =
      ("tx_".toList ++ Hex.padded 8 other.number.toNat ++ "_".toList).length := by
    simp only [List.length_append, Hex.length_padded]
  obtain ⟨hfront, hdigits⟩ := List.append_inj hchars hlength
  have hhex : Hex.padded 8 node.number.toNat = Hex.padded 8 other.number.toNat :=
    List.append_cancel_left (List.append_cancel_right hfront)
  have hnumber : node.number = other.number := UInt32.toNat_inj.mp
    (Hex.padded_injective node.number.toNat_lt other.number.toNat_lt hhex)
  exact ⟨congrArg NodeId.mk hnumber, UInt64.toNat_inj.mp (toDigits_injective hdigits)⟩

/-- Transactions with the same identifier have the same number, whatever their nodes. -/
theorem generate_sequence {node other : NodeId} {m n : UInt64}
    (h : generate node m = generate other n) : m = n :=
  (eq_of_text_generate (congrArg text h)).2

end RadioAdmin.TransactionId
