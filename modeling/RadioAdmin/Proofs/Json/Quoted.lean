import RadioAdmin.Json.Printer
import RadioAdmin.Json.Reader

/-!
# Texts in quotes that are written and read

Each character is written as itself, as an escape of one letter or as a coded unit, and what is
written for it is read as one piece. The pieces give the characters back, since the units that are
written are never halves of a pair.
-/
namespace RadioAdmin

open RawJson (Reader Frame Expecting)

/-- The piece as which a character is read after it has been written. -/
def TextPiece.ofChar (c : Char) : TextPiece :=
  match c with
  | '\x08' | '\x0c' | '\n' | '\r' | '\t' => .char c
  | _ => if c.toNat < 0x20 then .coded c.toNat else .char c

/-- The pieces as which a text is read after it has been written. -/
def piecesOfText (text : String) : List TextPiece := text.toList.map TextPiece.ofChar

theorem charsOfPieces_coded {unit : Nat} (h : unit < 0xD800) (rest : List TextPiece) :
    charsOfPieces (.coded unit :: rest) = (charsOfPieces rest).map (Char.ofNat unit :: ·) := by
  have hleading : isLeading unit = false := by simp [isLeading]; omega
  have htrailing : isTrailing unit = false := by simp [isTrailing]; omega
  rcases rest with _ | ⟨_ | low, rest⟩
  · simp [charsOfPieces, hleading, htrailing]
  · simp [charsOfPieces, hleading, htrailing]
  · rw [charsOfPieces, if_neg (by simp [hleading]), if_neg (by simp [htrailing])]

theorem charsOfPieces_ofChar (c : Char) (rest : List TextPiece) :
    charsOfPieces (TextPiece.ofChar c :: rest) = (charsOfPieces rest).map (c :: ·) := by
  unfold TextPiece.ofChar
  split
  case h_6 =>
    split
    · rename_i hcontrol
      rw [charsOfPieces_coded (by omega), Char.ofNat_toNat]
    · rfl
  all_goals rfl

theorem textOfPieces_piecesOfText (text : String) :
    textOfPieces (piecesOfText text) = some text := by
  have hchars (chars : List Char) : charsOfPieces (chars.map TextPiece.ofChar) = some chars := by
    induction chars with
    | nil => rfl
    | cons c rest ih => rw [List.map_cons, charsOfPieces_ofChar, ih, Option.map_some]
  rw [textOfPieces, piecesOfText, hchars, Option.map_some, String.ofList_toList]

variable (stack : List Frame) (expecting : Expecting) (done : List TextPiece)

theorem step_code {c : Char} {digit : Nat} (digits value : Nat) (h : Hex.value? c = some digit) :
    Reader.step ⟨stack, expecting, .code done digits value⟩ c =
      some (if digits = 3 then ⟨stack, expecting, .quotes (.coded (16 * value + digit) :: done)⟩
        else ⟨stack, expecting, .code done (digits + 1) (16 * value + digit)⟩) := by
  rw [Reader.step, h]
  rfl

/-- Four digits in hex are read as one unit. -/
theorem foldlM_padded {unit : Nat} (h : unit < 0x10000) :
    (Hex.padded 4 unit).foldlM Reader.step ⟨stack, expecting, .code done 0 0⟩ =
      some ⟨stack, expecting, .quotes (.coded unit :: done)⟩ := by
  have hdigit (n : Nat) : Hex.value? (Hex.digit .lower (n % 16)) = some (n % 16) :=
    Hex.value?_digit .lower _ (Nat.mod_lt n (by decide))
  have hunit : 16 * (16 * (16 * (16 * 0 + unit / 16 / 16 / 16 % 16) + unit / 16 / 16 % 16) +
      unit / 16 % 16) + unit % 16 = unit := by omega
  simp only [Hex.padded, List.nil_append, List.cons_append, List.foldlM_cons, List.foldlM_nil,
    step_code _ _ _ _ _ (hdigit _), Option.bind_eq_bind, Option.bind_some, reduceIte,
    Nat.reduceAdd, Nat.reduceEqDiff, hunit]
  rfl

/-- What is written for a character within quotes is read as its piece. -/
theorem foldlM_escape (c : Char) :
    (Json.escape c).foldlM Reader.step ⟨stack, expecting, .quotes done⟩ =
      some ⟨stack, expecting, .quotes (TextPiece.ofChar c :: done)⟩ := by
  unfold Json.escape
  split
  case h_8 hquote hback hb hf hn hr ht =>
    rw [TextPiece.ofChar]
    · split
      · rename_i hcontrol
        exact foldlM_padded stack expecting done (by omega)
      · rename_i hplain
        rw [List.foldlM_cons, Reader.step]
        dsimp only
        rw [if_neg hquote, if_neg hback, if_neg hplain]
        rfl
    all_goals assumption
  -- An escape of one letter.
  all_goals rfl

theorem foldlM_flatMap_escape (chars : List Char) :
    (chars.flatMap Json.escape).foldlM Reader.step ⟨stack, expecting, .quotes done⟩ =
      some ⟨stack, expecting, .quotes ((chars.map TextPiece.ofChar).reverse ++ done)⟩ := by
  induction chars generalizing done with
  | nil => rfl
  | cons c rest ih =>
    rw [List.flatMap_cons, List.foldlM_append, foldlM_escape, Option.bind_eq_bind, Option.bind_some,
      ih, List.map_cons, List.reverse_cons, List.append_assoc]
    rfl

/-- A written text is read as a quoted text of its pieces. -/
theorem foldlM_printText (text : String) :
    (Json.printText text).toList.foldlM Reader.step ⟨stack, expecting, .gap⟩ =
      Reader.quoted ⟨stack, expecting, .gap⟩ (piecesOfText text) := by
  have hopen : Reader.step ⟨stack, expecting, .gap⟩ '"' =
      some ⟨stack, expecting, .quotes []⟩ := rfl
  have hclose (pieces : List TextPiece) :
      Reader.step ⟨stack, expecting, .quotes pieces⟩ '"' =
        Reader.quoted ⟨stack, expecting, .gap⟩ pieces.reverse := rfl
  have hchars :
      (Json.printText text).toList = '"' :: (text.toList.flatMap Json.escape ++ ['"']) := by
    simp only [Json.printText, String.toList_append, String.toList_ofList]
    rfl
  rw [hchars, List.foldlM_cons, hopen, Option.bind_eq_bind, Option.bind_some, List.foldlM_append,
    foldlM_flatMap_escape, Option.bind_eq_bind, Option.bind_some, List.foldlM_cons, hclose,
    List.append_nil, List.reverse_reverse]
  exact bind_pure _

end RadioAdmin
