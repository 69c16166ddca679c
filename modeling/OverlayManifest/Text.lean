/-
# Text as lists of characters

The readers of this library work on lists of characters. Offsets that they
report count the bytes of the UTF-8 encoding.
-/

namespace OverlayManifest.Text

/-- The number of bytes of a text's UTF-8 encoding. -/
def byteSize : List Char → Nat
  | [] => 0
  | c :: text => c.utf8Size + byteSize text

@[simp]
theorem byteSize_nil : byteSize [] = 0 := rfl

@[simp]
theorem byteSize_cons (c : Char) (text : List Char) :
    byteSize (c :: text) = c.utf8Size + byteSize text := rfl

@[simp]
theorem byteSize_append (first second : List Char) :
    byteSize (first ++ second) = byteSize first + byteSize second := by
  induction first with
  | nil => simp
  | cons c first ih => rw [List.cons_append, byteSize_cons, byteSize_cons, ih, Nat.add_assoc]

/-- The character numbered by the first byte of a character's UTF-8 encoding. -/
def leadByte (c : Char) : Char :=
  match String.utf8EncodeChar c with
  | byte :: _ => Char.ofNat byte.toNat
  | [] => c

/-- The text `part` stands somewhere in `text`. -/
def occurs (part : List Char) : List Char → Bool
  | [] => part.isEmpty
  | c :: text => part.isPrefixOf (c :: text) || occurs part text

/-- A part occurs exactly if the text is that part with something on both sides. -/
theorem occurs_iff {part text : List Char} : occurs part text ↔ part <:+: text := by
  induction text with
  | nil => simp [occurs]
  | cons c text ih =>
    rw [occurs, Bool.or_eq_true, List.isPrefixOf_iff_prefix, ih, List.infix_cons_iff]

/-- What follows the last mark in a list, unless that mark opens the list. -/
def afterLast? {α : Type} [BEq α] (mark : α) (list : List α) : Option (List α) :=
  match list.reverse.span (· != mark) with
  | (_, []) | (_, [_]) => none
  | (ending, _) => some ending.reverse

/-- The text without its first characters of a kind and its last ones. -/
def trim (drop : Char → Bool) (text : List Char) : List Char :=
  ((text.dropWhile drop).reverse.dropWhile drop).reverse

/-- Only characters of the kind are taken away. -/
theorem exists_trim (drop : Char → Bool) (text : List Char) :
    ∃ before after, text = before ++ (trim drop text ++ after) ∧
      before.all drop = true ∧ after.all drop = true := by
  refine ⟨text.takeWhile drop, ((text.dropWhile drop).reverse.takeWhile drop).reverse, ?_, ?_, ?_⟩
  · rw [trim, ← List.reverse_append, List.takeWhile_append_dropWhile, List.reverse_reverse,
      List.takeWhile_append_dropWhile]
  · exact List.all_takeWhile
  · rw [List.all_reverse]
    exact List.all_takeWhile

/-- A text without characters of the kind is what is left of it between such characters. -/
theorem trim_append {drop : Char → Bool} {before text after : List Char} (hsome : text ≠ [])
    (hbefore : before.all drop = true) (htext : ∀ c ∈ text, drop c = false)
    (hafter : after.all drop = true) : trim drop (before ++ (text ++ after)) = text := by
  have hkeep {text : List Char} (hsome : text ≠ []) (htext : ∀ c ∈ text, drop c = false)
      (rest : List Char) : (text ++ rest).dropWhile drop = text ++ rest := by
    obtain ⟨first, more, rfl⟩ := List.exists_cons_of_ne_nil hsome
    rw [List.cons_append, List.dropWhile_cons_of_neg]
    rw [htext first List.mem_cons_self]
    exact Bool.false_ne_true
  have hreverse : (text.reverse ++ []).dropWhile drop = text.reverse ++ [] :=
    hkeep (by simpa using hsome) (fun c hc => htext c (List.mem_reverse.mp hc)) []
  rw [trim, List.dropWhile_append_of_pos (List.all_eq_true.mp hbefore), hkeep hsome htext,
    List.reverse_append, List.dropWhile_append_of_pos (List.all_eq_true.mp (by simpa using hafter))]
  rw [List.append_nil] at hreverse
  rw [hreverse, List.reverse_reverse]

end OverlayManifest.Text
