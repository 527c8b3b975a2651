import Findings.Proofs.Rendering
import Mathlib.Logic.Function.Basic

/-!
# Texts that tell where they end

What `write` makes of its values is self-delimiting (`SelfDelimiting write`) if no value is written
as the beginning of another one's text: whatever follows, the value can be told from the text, and
so can what follows. A quoted string is self-delimiting whatever it holds, as it ends at the first
quotation mark that is not part of an escape (`Text.selfDelimiting_quote`); so is a list of such
texts with commas between them and a bracket behind them (`SelfDelimiting.listed`).

Route. A run of characters ends at the first of another kind (`eq_of_append_cons`), as the digits of
an escape do at its brace. What one character is written as is never the beginning of what another
is (`Text.eq_of_escapeChar_append`), and never starts with a quotation mark.
-/

set_option autoImplicit false

namespace Findings

/-- The text of a value, with anything behind it, is that of no other value with anything behind
it. -/
def SelfDelimiting {α : Type} (write : α → String) : Prop :=
  ∀ ⦃a b : α⦄ ⦃s t : String⦄, write a ++ s = write b ++ t → a = b ∧ s = t

/-- What stands in front of the first character of a kind is told by the text. -/
theorem eq_of_append_cons {p : Char → Prop} {s t u v : List Char} {c d : Char}
    (hs : ∀ x ∈ s, ¬ p x) (ht : ∀ x ∈ t, ¬ p x) (hc : p c) (hd : p d)
    (h : s ++ c :: u = t ++ d :: v) : s = t ∧ c :: u = d :: v := by
  induction s generalizing t with
  | nil =>
    cases t with
    | nil => exact ⟨rfl, h⟩
    | cons y t =>
      obtain ⟨rfl, -⟩ := List.cons.inj h
      exact absurd hc (ht c List.mem_cons_self)
  | cons x s ih =>
    cases t with
    | nil =>
      obtain ⟨rfl, -⟩ := List.cons.inj h
      exact absurd hd (hs x List.mem_cons_self)
    | cons y t =>
      obtain ⟨rfl, htail⟩ := List.cons.inj h
      rw [List.forall_mem_cons] at hs ht
      obtain ⟨rfl, hrest⟩ := ih hs.2 ht.2 htail
      exact ⟨rfl, hrest⟩

/-! ## Lists -/

theorem intercalate_cons_eq_join (separator s : String) (l : List String) :
    separator.intercalate (s :: l) = s ++ String.join (l.map (separator ++ ·)) := by
  induction l generalizing s with
  | nil => simp
  | cons t l ih =>
    rw [String.intercalate_cons_cons, ih, List.map_cons, String.join_cons, String.append_assoc,
      String.append_assoc]

namespace SelfDelimiting

variable {α : Type} {write : α → String} {close : String}

theorem injective (h : SelfDelimiting write) : Function.Injective write := by
  intro a b hab
  have hempty : write a ++ "" = write b ++ "" := by rw [hab]
  exact (h hempty).1

/-- What follows the first item of a list: every further one has a comma in front of it. -/
theorem eq_of_further_items (h : SelfDelimiting write) (hcomma : ∀ s t, close ++ s ≠ ", " ++ t)
    {l l' : List α} {s t : String}
    (heq : String.join ((l.map write).map (", " ++ ·)) ++ (close ++ s) =
      String.join ((l'.map write).map (", " ++ ·)) ++ (close ++ t)) : l = l' ∧ s = t := by
  induction l generalizing l' with
  | nil =>
    cases l' with
    | nil => simpa using heq
    | cons b l' => exact (hcomma s _ (by simpa [String.append_assoc] using heq)).elim
  | cons a l ih =>
    cases l' with
    | nil => exact (hcomma t _ (by simpa [String.append_assoc] using heq.symm)).elim
    | cons b l' =>
      simp only [List.map_cons, String.join_cons, String.append_assoc,
        String.append_right_inj] at heq
      obtain ⟨rfl, hrest⟩ := h heq
      obtain ⟨rfl, hst⟩ := ih hrest
      exact ⟨rfl, hst⟩

/-- A list with commas between its items, behind it a bracket that starts neither with a comma nor
as an item. -/
theorem listed (h : SelfDelimiting write) (close : String)
    (hcomma : ∀ s t, close ++ s ≠ ", " ++ t) (hitem : ∀ a s t, close ++ s ≠ write a ++ t) :
    SelfDelimiting fun l : List α => String.intercalate ", " (l.map write) ++ close := by
  intro l l' s t heq
  cases l with
  | nil =>
    cases l' with
    | nil => simpa using heq
    | cons b l' =>
      simp only [List.map_cons, intercalate_cons_eq_join] at heq
      exact (hitem b s _ (by simpa [String.append_assoc] using heq)).elim
  | cons a l =>
    cases l' with
    | nil =>
      simp only [List.map_cons, intercalate_cons_eq_join] at heq
      exact (hitem a t _ (by simpa [String.append_assoc] using heq.symm)).elim
    | cons b l' =>
      simp only [List.map_cons, intercalate_cons_eq_join, String.append_assoc] at heq
      obtain ⟨rfl, hrest⟩ := h heq
      obtain ⟨rfl, hst⟩ := h.eq_of_further_items hcomma hrest
      exact ⟨rfl, hst⟩

end SelfDelimiting

/-! ## Quoted strings -/

namespace Text

variable {c d : Char} {s t : List Char}

theorem digitChar_inj_of_lt {m n : Nat} (hm : m < 16) (hn : n < 16)
    (h : Nat.digitChar m = Nat.digitChar n) : m = n := by
  have hall : ∀ i < 16, ∀ j < 16, Nat.digitChar i = Nat.digitChar j → i = j := by decide
  exact hall m hm n hn h

theorem hexDigits_injective : Function.Injective (Nat.toDigits 16) := by
  intro m n h
  induction m using Nat.strongRecOn generalizing n with
  | ind m ih =>
    have hone (i j : Nat) :
        [Nat.digitChar i] ≠ Nat.toDigits 16 (j / 16) ++ [Nat.digitChar (j % 16)] := by
      intro h
      have hlength := congrArg List.length h
      have hpos : 0 < (Nat.toDigits 16 (j / 16)).length := Nat.length_toDigits_pos
      rw [List.length_append, List.length_singleton, List.length_singleton] at hlength
      omega
    rw [Nat.toDigits_eq_if (by decide), Nat.toDigits_eq_if (n := n) (by decide)] at h
    split at h <;> split at h
    next hm hn => exact digitChar_inj_of_lt hm hn (List.cons.inj h).1
    next => exact (hone m n h).elim
    next => exact (hone n m h.symm).elim
    next hm hn =>
      obtain ⟨hhigh, hlow⟩ := List.append_inj' h rfl
      have hdiv := ih (m / 16) (by omega) hhigh
      have hmod := digitChar_inj_of_lt (m.mod_lt (by decide)) (n.mod_lt (by decide))
        (List.cons.inj hlow).1
      omega

theorem ne_brace_of_mem_hexDigits {n : Nat} (h : c ∈ Nat.toDigits 16 n) : c ≠ '\x7d' := by
  have hdigit : ∀ i < 16, Nat.digitChar i ≠ '\x7d' := by decide
  induction n using Nat.strongRecOn with
  | ind n ih =>
    rw [Nat.toDigits_eq_if (by decide)] at h
    split at h
    next hlt =>
      rw [List.mem_singleton.1 h]
      exact hdigit n hlt
    next hge =>
      rcases List.mem_append.1 h with h | h
      · exact ih (n / 16) (by omega) h
      · rw [List.mem_singleton.1 h]
        exact hdigit _ (n.mod_lt (by decide))

theorem eq_of_shortEscapes {e : Char} (h : (c, e) ∈ shortEscapes)
    (h' : (d, e) ∈ shortEscapes) : c = d := by
  have hall : ∀ p ∈ shortEscapes, ∀ q ∈ shortEscapes, p.2 = q.2 → p.1 = q.1 := by decide
  exact hall _ h _ h' rfl

theorem not_mem_shortEscapes : (c, 'u') ∉ shortEscapes := by
  have hall : ∀ p ∈ shortEscapes, p.2 ≠ 'u' := by decide
  exact fun h => hall _ h rfl

/-- The escapes begin with a backslash, so no character is written as the beginning of what another
is. -/
theorem Escaped.eq_of_append {x y : List Char} (hc : Escaped c x) (hd : Escaped d y)
    (h : x ++ s = y ++ t) : c = d ∧ s = t := by
  cases hc with
  | plain hc =>
    cases hd with
    | plain => exact List.cons.inj h
    | short | code =>
      obtain ⟨rfl, -⟩ := List.cons.inj h
      exact absurd (by decide) (hc '\\')
  | short hc =>
    cases hd with
    | plain hd =>
      obtain ⟨rfl, -⟩ := List.cons.inj h
      exact absurd (by decide) (hd '\\')
    | short hd =>
      obtain ⟨rfl, hrest⟩ := List.cons.inj (List.cons.inj h).2
      exact ⟨eq_of_shortEscapes hc hd, hrest⟩
    | code =>
      obtain ⟨rfl, -⟩ := List.cons.inj (List.cons.inj h).2
      exact absurd hc not_mem_shortEscapes
  | code =>
    cases hd with
    | plain hd =>
      obtain ⟨rfl, -⟩ := List.cons.inj h
      exact absurd (by decide) (hd '\\')
    | short hd =>
      obtain ⟨rfl, -⟩ := List.cons.inj (List.cons.inj h).2
      exact absurd hd not_mem_shortEscapes
    | code =>
      simp only [List.cons_append, List.append_assoc, List.nil_append, List.cons.injEq,
        true_and] at h
      obtain ⟨hdigits, hrest⟩ := eq_of_append_cons (p := (· = '\x7d'))
        (fun _ => ne_brace_of_mem_hexDigits) (fun _ => ne_brace_of_mem_hexDigits) rfl rfl h
      exact ⟨Char.toNat_inj.1 (hexDigits_injective hdigits), (List.cons.inj hrest).2⟩

theorem Escaped.ne_quote {x : List Char} (h : Escaped c x) : x ++ s ≠ '"' :: t := by
  intro heq
  cases h with
  | plain h =>
    obtain ⟨rfl, -⟩ := List.cons.inj heq
    exact absurd (by decide) (h '"')
  | short => exact absurd (List.cons.inj heq).1 (by decide)
  | code => exact absurd (List.cons.inj heq).1 (by decide)

theorem eq_of_flatMap_escapeChar {x y : List Char}
    (h : x.flatMap escapeChar ++ '"' :: s = y.flatMap escapeChar ++ '"' :: t) :
    x = y ∧ s = t := by
  induction x generalizing y with
  | nil =>
    cases y with
    | nil => exact ⟨rfl, (List.cons.inj h).2⟩
    | cons d y =>
      rw [List.flatMap_cons, List.append_assoc] at h
      exact absurd h.symm (escaped_escapeChar d).ne_quote
  | cons c x ih =>
    cases y with
    | nil =>
      rw [List.flatMap_cons, List.append_assoc] at h
      exact absurd h (escaped_escapeChar c).ne_quote
    | cons d y =>
      rw [List.flatMap_cons, List.flatMap_cons, List.append_assoc, List.append_assoc] at h
      obtain ⟨rfl, hrest⟩ := (escaped_escapeChar c).eq_of_append (escaped_escapeChar d) h
      obtain ⟨rfl, hst⟩ := ih hrest
      exact ⟨rfl, hst⟩

/-- **A quoted string tells where it ends**, whatever it holds. -/
theorem selfDelimiting_quote : SelfDelimiting quote := by
  intro a b s t h
  have hlist := congrArg String.toList h
  simp only [quote, String.toList_append, String.toList_ofList, List.cons_append, List.append_assoc,
    List.nil_append, List.cons.injEq, true_and] at hlist
  obtain ⟨hab, hst⟩ := eq_of_flatMap_escapeChar hlist
  exact ⟨String.toList_inj.1 hab, String.toList_inj.1 hst⟩

end Text

end Findings
