import Mathlib.Data.List.Forall2
import ThinrAgent.Installer.RcConf

/-!
# `ThinrAgent.Proofs.RcConf`: which services an edit of `rc.conf` removes

`modifyRcConf` looks for the name of a service as a text, not as a word, and takes a blank on either
side away with it. `erase_iff` says for which surroundings of the first place the words come out
right: the name is a word of its own, at most one of its neighbours is right next to the blank
that is taken away, and it does not come again. There is one more way, by accident: the name is the
end of a longer word and the word behind it.

`disable_iff` puts this together for one line, and `rcConfRight_iff` for every text: the edits do
what they should exactly when every line of services is `Separable`.
-/

set_option autoImplicit false

namespace ThinrAgent

open Text

/-- A text that can stand as a word of its own. -/
structure ServiceName where
  chars : List Char
  ne_nil : chars ≠ []
  notSpace : ∀ c ∈ chars, isSpaceChar c = false

/-! ### The erased text -/

/-- The text without a blank at its end. -/
def trimBlankEnd (xs : List Char) : List Char := if xs.getLast? = some ' ' then xs.dropLast else xs

/-- The text without a blank at its front. -/
def trimBlankStart (ys : List Char) : List Char := if ys.head? = some ' ' then ys.tail else ys

section Erase
variable {name xs ys : List Char}

/-- To erase a name between two texts takes the blanks at its sides, one on each side at most, and
leaves the two texts. -/
theorem eraseService_eq (name xs ys : List Char) :
    eraseService name (xs ++ (name ++ ys)) xs.length = trimBlankEnd xs ++ trimBlankStart ys := by
  have hbehind : (xs ++ (name ++ ys))[xs.length + name.length]? = ys.head? := by
    rw [← List.append_assoc, List.getElem?_append_right (by simp)]
    simp [List.head?_eq_getElem?]
  have hdrop : (xs ++ (name ++ ys)).drop (xs.length + name.length) = ys := by
    rw [← List.append_assoc, ← List.length_append, List.drop_left]
  -- What is left behind the name, and what is left in front of it.
  have hend : (xs ++ (name ++ ys)).drop
      (if (xs ++ (name ++ ys))[xs.length + name.length]? = some ' ' then
        xs.length + name.length + 1 else xs.length + name.length) = trimBlankStart ys := by
    rw [hbehind, trimBlankStart]
    split
    · rw [← List.drop_drop, hdrop, List.drop_one]
    · exact hdrop
  have hstart : (xs ++ (name ++ ys)).take
      (if 0 < xs.length ∧ (xs ++ (name ++ ys))[xs.length - 1]? = some ' ' then xs.length - 1
        else xs.length) = trimBlankEnd xs := by
    rcases List.eq_nil_or_concat xs with rfl | ⟨xs', c, rfl⟩
    · simp [trimBlankEnd]
    · simp only [List.concat_eq_append, trimBlankEnd, List.getLast?_append, List.getLast?_singleton,
        List.length_append, List.length_singleton, Nat.add_sub_cancel, List.append_assoc,
        List.getElem?_append_right (Nat.le_refl _), Nat.sub_self, List.singleton_append,
        List.getElem?_cons_zero, Option.some_or, Option.some.injEq, Nat.succ_pos, true_and,
        List.dropLast_concat]
      split
      · exact List.take_left
      · rw [← List.singleton_append, ← List.append_assoc]
        exact List.take_left' (by simp)
  rw [eraseService]
  exact congrArg₂ (· ++ ·) hstart hend

/-- The blank is one of the characters that separate words. -/
theorem isSpaceChar_blank : isSpaceChar ' ' = true := by decide

/-- A blank taken from the end changes no word. -/
theorem words_trimBlankEnd (xs : List Char) :
    words isSpaceChar (trimBlankEnd xs) = words isSpaceChar xs := by
  unfold trimBlankEnd
  split
  · next hlast =>
    obtain ⟨xs', rfl⟩ := List.getLast?_eq_some_iff.mp hlast
    rw [List.dropLast_concat, words_concat isSpaceChar_blank]
  · rfl

/-- A blank taken from the start changes no word either. -/
theorem words_trimBlankStart (ys : List Char) :
    words isSpaceChar (trimBlankStart ys) = words isSpaceChar ys := by
  unfold trimBlankStart
  split
  · next hhead =>
    obtain ⟨ys', rfl⟩ := List.head?_eq_some_iff.mp hhead
    rw [List.tail_cons, words_cons isSpaceChar_blank]
  · rfl

/-- A text that ends in a word has no blank to take at its end. -/
theorem trimBlankEnd_eq_self (h : EndsInWord isSpaceChar xs = true) : trimBlankEnd xs = xs := by
  refine if_neg fun hlast => ?_
  rw [EndsInWord, hlast] at h
  cases h

/-- A text that starts in a word has no blank to take at its start. -/
theorem trimBlankStart_eq_self (h : StartsInWord isSpaceChar ys = true) :
    trimBlankStart ys = ys := by
  refine if_neg fun hhead => ?_
  rw [StartsInWord, hhead] at h
  cases h

/-- The words of two texts with a word across their border. -/
theorem words_across (xs ys : List Char) (h : EndsInWord isSpaceChar xs = true ∨
    StartsInWord isSpaceChar ys = true) : ∃ front a b back, words isSpaceChar (xs ++ ys) =
      front ++ (a ++ b) :: back ∧
      words isSpaceChar xs = front ++ (if a = [] then [] else [a]) ∧
      words isSpaceChar ys = (if b = [] then [] else [b]) ++ back ∧
      (a = [] ↔ EndsInWord isSpaceChar xs = false) ∧
      (b = [] ↔ StartsInWord isSpaceChar ys = false) := by
  -- The last word of the first text and the first word of the second become one.
  obtain ⟨xs', a, rfl, hxs', ha, hanil⟩ := exists_last_word isSpaceChar xs
  obtain ⟨b, ys', rfl, hys', hb, hbnil⟩ := exists_first_word isSpaceChar ys
  refine ⟨words isSpaceChar xs', a, b, words isSpaceChar ys', ?_, ?_, ?_, hanil, hbnil⟩
  · have hne : a ++ b ≠ [] := by
      intro hnil
      rw [List.append_eq_nil_iff, hanil, hbnil] at hnil
      rcases h with h | h
      · exact Bool.false_ne_true (hnil.1.symm.trans h)
      · exact Bool.false_ne_true (hnil.2.symm.trans h)
    have hword : ∀ c ∈ a ++ b, isSpaceChar c = false := by
      intro c hc
      exact (List.mem_append.mp hc).elim (ha c) (hb c)
    rw [show xs' ++ a ++ (b ++ ys') = xs' ++ ((a ++ b) ++ ys') by simp,
      words_around hxs' hys' hword hne]
  · split
    · next hnil => rw [hnil, List.append_nil, List.append_nil]
    · next hne => rw [words_append (.inl hxs'), words_of_notBlank ha hne]
  · split
    · next hnil => rw [hnil, List.nil_append, List.nil_append]
    · next hne => rw [words_append (.inr hys'), words_of_notBlank hb hne]

end Erase

/-- What stands around the first place of the name lets an edit take it away: the name is a word,
and the words around it stay apart. Or the name is the end of a word and the next word. -/
def Separated (n : ServiceName) (xs ys : List Char) : Prop :=
  (EndsInWord isSpaceChar xs = false ∧ StartsInWord isSpaceChar ys = false ∧
    (EndsInWord isSpaceChar (trimBlankEnd xs) = false ∨
      StartsInWord isSpaceChar (trimBlankStart ys) = false) ∧
    n.chars ∉ words isSpaceChar ys) ∨
  EndsInWord isSpaceChar xs = true ∧ ∃ ys', ys = ' ' :: (n.chars ++ ys') ∧
    StartsInWord isSpaceChar ys' = false ∧ n.chars ∉ words isSpaceChar ys'

/-- The words of a list of services without the name, in their order. -/
def ServiceName.without (n : ServiceName) (ws : List (List Char)) : List (List Char) :=
  ws.filter fun w => w ≠ n.chars

section Cases
variable {n : ServiceName} {xs ys : List Char}

/-- Nothing is taken out of a list of words exactly when the name is not among them. -/
theorem without_eq_self_iff {ws : List (List Char)} : n.without ws = ws ↔ n.chars ∉ ws := by
  rw [ServiceName.without, List.filter_eq_self]
  constructor
  · intro h hmem
    simpa using h _ hmem
  · intro h w hw
    exact decide_eq_true fun heq => h (heq ▸ hw)

/-- A name is taken out of two lists of words at a time. -/
theorem without_append (ws ws' : List (List Char)) :
    n.without (ws ++ ws') = n.without ws ++ n.without ws' := List.filter_append ..

/-- Another word than the name stays in the list. -/
theorem without_cons_of_ne {w : List Char} (h : w ≠ n.chars) (ws : List (List Char)) :
    n.without (w :: ws) = w :: n.without ws := List.filter_cons_of_pos (by simpa using h)

/-- The name itself goes from the list. -/
theorem without_cons_self (ws : List (List Char)) :
    n.without (n.chars :: ws) = n.without ws := List.filter_cons_of_neg (by simp)

/-- The name is a word of its own. -/
theorem erase_iff_of_word :
    words isSpaceChar (trimBlankEnd xs ++ trimBlankStart ys) =
        words isSpaceChar xs ++ n.without (words isSpaceChar ys) ↔
      (EndsInWord isSpaceChar (trimBlankEnd xs) = false ∨
        StartsInWord isSpaceChar (trimBlankStart ys) = false) ∧ n.chars ∉ words isSpaceChar ys := by
  by_cases hgap : EndsInWord isSpaceChar (trimBlankEnd xs) = false ∨
      StartsInWord isSpaceChar (trimBlankStart ys) = false
  · rw [words_append hgap, words_trimBlankEnd, words_trimBlankStart, List.append_cancel_left_eq,
      eq_comm, without_eq_self_iff]
    exact (and_iff_right hgap).symm
  · refine iff_of_false (fun heq => ?_) (fun h => hgap h.1)
    rw [not_or, Bool.not_eq_false, Bool.not_eq_false] at hgap
    -- The words next to the name grow together.
    obtain ⟨front, a, b, back, hwords, hxwords, -, ha, hb⟩ :=
      words_across (trimBlankEnd xs) (trimBlankStart ys) (.inl hgap.1)
    have hane : a ≠ [] := fun h => by simp [ha.mp h] at hgap
    have hbne : b ≠ [] := fun h => by simp [hb.mp h] at hgap
    rw [words_trimBlankEnd, if_neg hane] at hxwords
    rw [hwords, hxwords, List.append_assoc, List.append_cancel_left_eq, List.singleton_append,
      List.cons.injEq, List.append_right_eq_self] at heq
    exact hbne heq.1

/-- The name is the end of a longer word. -/
theorem erase_iff_of_suffix {a : List Char} (hxs : EndsInWord isSpaceChar xs = false)
    (ha : ∀ c ∈ a, isSpaceChar c = false) (hane : a ≠ [])
    (hys : StartsInWord isSpaceChar ys = false)
    (hends : EndsInWord isSpaceChar (xs ++ a) = true) :
    words isSpaceChar (trimBlankEnd (xs ++ a) ++ trimBlankStart ys) =
        words isSpaceChar xs ++ (a ++ n.chars) :: n.without (words isSpaceChar ys) ↔
      ∃ ys', ys = ' ' :: (n.chars ++ ys') ∧ StartsInWord isSpaceChar ys' = false ∧
        n.chars ∉ words isSpaceChar ys' := by
  rw [trimBlankEnd_eq_self hends, List.append_assoc]
  by_cases hstarts : StartsInWord isSpaceChar (trimBlankStart ys) = true
  · -- Only a blank can hide a word at the front.
    obtain ⟨zs, rfl⟩ : ∃ zs, ys = ' ' :: zs := by
      by_cases hhead : ys.head? = some ' '
      · exact List.head?_eq_some_iff.mp hhead
      · rw [trimBlankStart, if_neg hhead, hys] at hstarts
        cases hstarts
    have htrim : trimBlankStart (' ' :: zs) = zs := rfl
    rw [htrim] at hstarts ⊢
    obtain ⟨b, zs', rfl, hzs', hb, hbnil⟩ := exists_first_word isSpaceChar zs
    have hbne : b ≠ [] := fun h => by simp [hbnil.mp h] at hstarts
    have hword : ∀ c ∈ a ++ b, isSpaceChar c = false := fun c hc =>
      (List.mem_append.mp hc).elim (ha c) (hb c)
    have hzwords : words isSpaceChar (b ++ zs') = b :: words isSpaceChar zs' := by
      rw [words_append (.inr hzs'), words_of_notBlank hb hbne]
      rfl
    rw [← List.append_assoc a, words_around hxs hzs' hword (by simp [hane]),
      words_cons isSpaceChar_blank, hzwords, List.append_cancel_left_eq, List.cons.injEq,
      List.append_cancel_left_eq]
    constructor
    · rintro ⟨rfl, htail⟩
      rw [without_cons_self, eq_comm, without_eq_self_iff] at htail
      exact ⟨zs', rfl, hzs', htail⟩
    · rintro ⟨ys', heq, hys', hnot⟩
      -- Both sides have the same first word.
      have hsame : b :: words isSpaceChar zs' = n.chars :: words isSpaceChar ys' := by
        rw [← hzwords, (List.cons.inj heq).2, words_append (.inr hys'),
          words_of_notBlank n.notSpace n.ne_nil]
        rfl
      obtain ⟨rfl, htail⟩ := List.cons.inj hsame
      rw [without_cons_self, htail, without_eq_self_iff.mpr hnot]
      exact ⟨rfl, rfl⟩
  · rw [Bool.not_eq_true] at hstarts
    refine iff_of_false (fun heq => ?_) ?_
    · rw [← List.append_assoc, words_append (.inr hstarts), words_append (.inl hxs),
        words_of_notBlank ha hane, List.append_assoc, List.append_cancel_left_eq,
        List.singleton_append, List.cons.injEq, eq_comm, List.append_right_eq_self] at heq
      exact n.ne_nil heq.1
    · rintro ⟨ys', rfl, -, -⟩
      obtain ⟨c, cs, hname⟩ := List.exists_cons_of_ne_nil n.ne_nil
      have hc := n.notSpace c (by simp [hname])
      rw [show trimBlankStart (' ' :: (n.chars ++ ys')) = n.chars ++ ys' from rfl, hname] at hstarts
      simp [StartsInWord, hc] at hstarts

/-- The name goes on behind: it is the front or the middle of a longer word. -/
theorem erase_ne_at_start {a b : List Char} (hxs : EndsInWord isSpaceChar xs = false)
    (ha : ∀ c ∈ a, isSpaceChar c = false) (hb : ∀ c ∈ b, isSpaceChar c = false) (hbne : b ≠ [])
    (hys : StartsInWord isSpaceChar ys = false) :
    words isSpaceChar (trimBlankEnd (xs ++ a) ++ trimBlankStart (b ++ ys)) ≠
      words isSpaceChar xs ++ (a ++ (n.chars ++ b)) :: n.without (words isSpaceChar ys) := by
  have hstarts : StartsInWord isSpaceChar (b ++ ys) = true := by
    obtain ⟨c, cs, rfl⟩ := List.exists_cons_of_ne_nil hbne
    simp [StartsInWord, hb c (by simp)]
  rw [trimBlankStart_eq_self hstarts]
  intro heq
  have hlonger : b ≠ n.chars ++ b := fun h => n.ne_nil (List.append_left_eq_self.mp h.symm)
  -- With nothing in front of the name in its word, the blanks before it go too, and the rest of
  -- the word joins the word before them, if there is one.
  by_cases hane : a = []
  · subst hane
    rw [List.append_nil] at heq
    obtain ⟨front, a', hfront, hclosed, ha', -⟩ :=
      exists_last_word isSpaceChar (trimBlankEnd xs)
    have hword : ∀ c ∈ a' ++ b, isSpaceChar c = false := fun c hc =>
      (List.mem_append.mp hc).elim (ha' c) (hb c)
    rw [← words_trimBlankEnd xs, hfront, List.append_assoc, ← List.append_assoc a',
      words_around hclosed hys hword (by simp [hbne])] at heq
    by_cases ha'ne : a' = []
    · subst ha'ne
      rw [List.append_nil, List.append_cancel_left_eq, List.cons.injEq] at heq
      exact hlonger heq.1
    · rw [words_append (.inl hclosed), words_of_notBlank ha' ha'ne, List.append_assoc,
        List.append_cancel_left_eq, List.singleton_append, List.cons.injEq,
        List.append_right_eq_self] at heq
      exact hbne heq.1
  · have hends : EndsInWord isSpaceChar (xs ++ a) = true := by
      obtain ⟨a', c, rfl⟩ := (List.eq_nil_or_concat a).resolve_left hane
      have hc := ha c (by simp)
      rw [List.concat_eq_append, ← List.append_assoc]
      simp [EndsInWord, hc]
    have hword : ∀ c ∈ a ++ b, isSpaceChar c = false := fun c hc =>
      (List.mem_append.mp hc).elim (ha c) (hb c)
    rw [trimBlankEnd_eq_self hends, List.append_assoc, ← List.append_assoc a,
      words_around hxs hys hword (by simp [hbne]), List.append_cancel_left_eq, List.cons.injEq,
      List.append_cancel_left_eq] at heq
    exact hlonger heq.1

/-- The words after the name was erased at its first place. -/
theorem erase_iff (hfirst : ∀ us vs, xs ++ (n.chars ++ ys) = us ++ (n.chars ++ vs) →
    xs.length ≤ us.length) :
    words isSpaceChar (trimBlankEnd xs ++ trimBlankStart ys) =
        n.without (words isSpaceChar (xs ++ (n.chars ++ ys))) ↔ Separated n xs ys := by
  obtain ⟨xs, a, rfl, hxs, ha, hanil⟩ := exists_last_word isSpaceChar xs
  obtain ⟨b, ys, rfl, hys, hb, hbnil⟩ := exists_first_word isSpaceChar ys
  -- The name is no word of the front, for it was erased at its first place.
  have hnot : n.chars ∉ words isSpaceChar xs := by
    intro hmem
    obtain ⟨us, vs, hxs⟩ := infix_of_mem_words hmem
    have hle := hfirst us (vs ++ (a ++ (n.chars ++ (b ++ ys)))) (by rw [← hxs]; simp)
    have hpos := List.length_pos_iff.mpr n.ne_nil
    rw [← hxs] at hle
    simp only [List.length_append] at hle
    omega
  have hword : ∀ c ∈ a ++ (n.chars ++ b), isSpaceChar c = false := by
    intro c hc
    rcases List.mem_append.mp hc with hc | hc
    · exact ha c hc
    · exact (List.mem_append.mp hc).elim (n.notSpace c) (hb c)
  have hwords : words isSpaceChar (xs ++ a ++ (n.chars ++ (b ++ ys))) =
      words isSpaceChar xs ++ (a ++ (n.chars ++ b)) :: words isSpaceChar ys := by
    rw [show xs ++ a ++ (n.chars ++ (b ++ ys)) = xs ++ ((a ++ (n.chars ++ b)) ++ ys) by simp,
      words_around hxs hys hword (by simp [n.ne_nil])]
  rw [hwords, without_append, without_eq_self_iff.mpr hnot]
  -- By what is left of the word around the erased name: `a` in front and `b` behind.
  by_cases hbne : b = []
  · subst hbne
    by_cases hane : a = []
    · subst hane
      simp only [List.append_nil, List.nil_append, without_cons_self]
      rw [erase_iff_of_word, Separated]
      simp [hxs, hys]
    · have hends : EndsInWord isSpaceChar (xs ++ a) = true := by
        rw [← Bool.not_eq_false, ← hanil]
        exact hane
      have hne : a ++ n.chars ≠ n.chars := fun h => hane (List.append_left_eq_self.mp h)
      simp only [List.append_nil, List.nil_append]
      rw [without_cons_of_ne hne, erase_iff_of_suffix hxs ha hane hys hends, Separated]
      simp [hends]
  · have hstarts : StartsInWord isSpaceChar (b ++ ys) = true := by
      rw [← Bool.not_eq_false, ← hbnil]
      exact hbne
    -- Something behind the name: the word was a longer one and should have stayed.
    have hne : a ++ (n.chars ++ b) ≠ n.chars := by
      intro h
      have hlength := congrArg List.length h
      have hpos := List.length_pos_iff.mpr hbne
      simp only [List.length_append] at hlength
      omega
    rw [without_cons_of_ne hne]
    refine iff_of_false (erase_ne_at_start hxs ha hb hbne hys) ?_
    rintro (⟨-, h, -⟩ | ⟨-, ys', h, -⟩)
    · exact Bool.false_ne_true (h.symm.trans hstarts)
    · rw [h] at hstarts
      cases hstarts

end Cases

/-! ### One line -/

section Line
variable {n : ServiceName} {line services : List Char}

/-- The words of a line of services, and nothing for a line that lists none. -/
def lineWords (line : List Char) : Option (List (List Char)) :=
  (serviceList line).map (words isSpaceChar)

/-- The name can be taken out of the services: it does not occur, or what stands around its first
place separates it. -/
def Separable (n : ServiceName) (services : List Char) : Prop :=
  match findText n.chars services with
  | none => True
  | some pos => Separated n (services.take pos) (services.drop (pos + n.chars.length))

/-- A line that is written for some services is read back as these services. So an edit of an edited
file finds what the first one has left. -/
theorem serviceList_serviceLine (services : List Char) :
    serviceList (serviceLine services) = some services := by
  have hbehind : ((serviceLine services).dropWhile (· ≠ '"')).drop 1 = services ++ ['"'] := by
    have hquote : ∀ c ∈ cfgServices, decide (c ≠ '"') = true := List.all_eq_true.mp (by decide)
    rw [serviceLine, List.dropWhile_append_of_pos hquote]
    simp
  have hprefix : cfgServices <+: serviceLine services := List.prefix_append _ _
  rw [serviceList, if_pos hprefix, betweenQuotes]
  simp only [hbehind]
  rw [if_pos (by simp), List.rdropWhile_concat_neg _ _ _ (by simp), List.dropLast_concat]

/-- A line that is no line of services stays. -/
theorem editLine_of_other {name : List Char} {enable : Bool} (h : serviceList line = none) :
    editLine name enable line = (line, false) := by
  simp only [editLine, h]

/-- To enable a service that the text of the line contains changes nothing. This is the case in
which a longer name hides a shorter one. -/
theorem editLine_present {name : List Char} {pos : Nat} (h : serviceList line = some services)
    (hfind : findText name services = some pos) : editLine name true line = (line, false) := by
  simp only [editLine, h, hfind]

/-- To enable a service that is not there puts it at the end of the line, behind a blank. -/
theorem editLine_add {name : List Char} (h : serviceList line = some services)
    (hfind : findText name services = none) :
    editLine name true line = (serviceLine (services ++ ' ' :: name), true) := by
  simp only [editLine, h, hfind]

/-- To disable a service that is not there changes nothing. -/
theorem editLine_absent {name : List Char} (h : serviceList line = some services)
    (hfind : findText name services = none) : editLine name false line = (line, false) := by
  simp only [editLine, h, hfind]

/-- To disable a service takes the first place where its name stands out of the line, whether or not
it is a word there. -/
theorem editLine_remove {name : List Char} {pos : Nat} (h : serviceList line = some services)
    (hfind : findText name services = some pos) :
    editLine name false line = (serviceLine (eraseService name services pos), true) := by
  simp only [editLine, h, hfind]

/-- The words behind an edit that removes the name. -/
theorem lineWords_disable (h : serviceList line = some services) :
    lineWords (editLine n.chars false line).1 =
      some (match findText n.chars services with
        | none => words isSpaceChar services
        | some pos => words isSpaceChar (eraseService n.chars services pos)) := by
  cases hfind : findText n.chars services with
  | none =>
    rw [editLine_absent h hfind, lineWords, h]
    rfl
  | some pos =>
    rw [editLine_remove h hfind, lineWords, serviceList_serviceLine]
    rfl

/-- A name that the text does not contain is none of its words. -/
theorem notMem_words_of_findText (h : findText n.chars services = none) :
    n.chars ∉ words isSpaceChar services := fun hmem =>
  findText_eq_none.mp h (infix_of_mem_words hmem)

/-- Removing the name from a line does what it should exactly when the name is separable. -/
theorem disable_iff (h : serviceList line = some services) :
    lineWords (editLine n.chars false line).1 = (lineWords line).map n.without ↔
      Separable n services := by
  rw [lineWords_disable h, Separable, lineWords, h, Option.map_some, Option.map_some,
    Option.some.injEq]
  cases hfind : findText n.chars services with
  | none =>
    exact iff_of_true (without_eq_self_iff.mpr (notMem_words_of_findText hfind)).symm trivial
  | some pos =>
    obtain ⟨hservices, hlength, hfirst⟩ := findText_eq_some hfind
    have herase : eraseService n.chars services pos =
        trimBlankEnd (services.take pos) ++
          trimBlankStart (services.drop (pos + n.chars.length)) := by
      have := eraseService_eq n.chars (services.take pos) (services.drop (pos + n.chars.length))
      rwa [← hservices, hlength] at this
    have hleft : ∀ us vs, services.take pos ++ (n.chars ++ services.drop (pos + n.chars.length)) =
        us ++ (n.chars ++ vs) → (services.take pos).length ≤ us.length := fun us vs heq =>
      hlength.symm ▸ hfirst us vs (hservices.trans heq)
    have hiff := erase_iff hleft
    rw [← hservices] at hiff
    simp only [herase]
    exact hiff

/-- A name that is separated is a word. -/
theorem mem_words_of_separated {xs ys : List Char} (h : Separated n xs ys) :
    n.chars ∈ words isSpaceChar (xs ++ (n.chars ++ ys)) := by
  rcases h with ⟨hxs, hys, -⟩ | ⟨-, ys', rfl, hys', -⟩
  · rw [words_around hxs hys n.notSpace n.ne_nil]
    simp
  · rw [← List.append_assoc, words_append_cons isSpaceChar_blank, words_append (.inr hys'),
      words_of_notBlank n.notSpace n.ne_nil]
    simp

/-- A name that is separable is a word of the line, where the search has found it. -/
theorem mem_words_of_separable {pos : Nat} (hfind : findText n.chars services = some pos)
    (h : Separable n services) : n.chars ∈ words isSpaceChar services := by
  rw [Separable, hfind] at h
  have hmem := mem_words_of_separated h
  rwa [← (findText_eq_some hfind).1] at hmem

/-- The words with the name behind them, unless it is among them already. -/
def ServiceName.added (n : ServiceName) (ws : List (List Char)) : List (List Char) :=
  if n.chars ∈ ws then ws else ws ++ [n.chars]

/-- Adding the name to a line does what it should when the name is separable. -/
theorem enable_of_separable (h : serviceList line = some services) (hsep : Separable n services) :
    lineWords (editLine n.chars true line).1 = (lineWords line).map n.added := by
  cases hfind : findText n.chars services with
  | none =>
    rw [editLine_add h hfind, lineWords, serviceList_serviceLine, lineWords, h, Option.map_some,
      Option.map_some, Option.map_some, ServiceName.added, if_neg (notMem_words_of_findText hfind),
      words_append_cons isSpaceChar_blank, words_of_notBlank n.notSpace n.ne_nil]
  | some pos =>
    rw [editLine_present h hfind, lineWords, h, Option.map_some, Option.map_some, ServiceName.added,
      if_pos (mem_words_of_separable hfind hsep)]

/-- The name stands only at the end of a text that it was added to. -/
theorem first_added (hnot : ¬n.chars <:+: services) {us vs : List Char}
    (h : us ++ (n.chars ++ vs) = services ++ ' ' :: n.chars) :
    us = services ++ [' '] ∧ vs = [] := by
  have hblank : ' ' ∉ n.chars := fun hmem =>
    Bool.false_ne_true ((n.notSpace _ hmem).symm.trans isSpaceChar_blank)
  -- Where the name starts, compared with the border between the services and the addition.
  rcases List.append_eq_append_iff.mp h with ⟨cs, rfl, hcs⟩ | ⟨cs, rfl, hcs⟩
  · -- The name starts in the services.
    exfalso
    rcases List.append_eq_append_iff.mp hcs with ⟨ds, rfl, hds⟩ | ⟨ds, hds, hvs⟩
    · exact hnot ⟨us, ds, by simp⟩
    · cases ds with
      | nil =>
        rw [List.append_nil] at hds
        exact hnot ⟨us, [], by rw [hds, List.append_nil]⟩
      | cons d ds =>
        rw [List.cons_append, List.cons.injEq] at hvs
        exact hblank (by rw [hds, ← hvs.1]; simp)
  · cases cs with
    | nil =>
      obtain ⟨c, rest, hname⟩ := List.exists_cons_of_ne_nil n.ne_nil
      rw [hname, List.nil_append, List.cons_append, List.cons.injEq] at hcs
      exact absurd (by rw [hname, hcs.1]; simp) hblank
    | cons c cs =>
      rw [List.cons_append, List.cons.injEq] at hcs
      have hlength := congrArg List.length hcs.2
      simp only [List.length_append] at hlength
      have hcsnil : cs = [] := List.length_eq_zero_iff.mp (by omega)
      have hvsnil : vs = [] := List.length_eq_zero_iff.mp (by omega)
      exact ⟨by rw [hcsnil, ← hcs.1], hvsnil⟩

/-- Adding the name and removing it again gives the words from before, where the name was not among
them. -/
theorem restore_of_separable (h : serviceList line = some services) (hsep : Separable n services)
    (hnot : n.chars ∉ words isSpaceChar services) :
    lineWords (editLine n.chars false (editLine n.chars true line).1).1 = lineWords line := by
  have hfind : findText n.chars services = none := by
    cases hfind : findText n.chars services with
    | none => rfl
    | some pos => exact absurd (mem_words_of_separable hfind hsep) hnot
  rw [editLine_add h hfind, lineWords_disable (serviceList_serviceLine _)]
  cases hfind' : findText n.chars (services ++ ' ' :: n.chars) with
  | none => exact absurd ⟨services ++ [' '], [], by simp⟩ (findText_eq_none.mp hfind')
  | some pos =>
    obtain ⟨hservices, hlength, -⟩ := findText_eq_some hfind'
    obtain ⟨htake, hdrop⟩ := first_added (findText_eq_none.mp hfind) hservices.symm
    have herase : eraseService n.chars (services ++ ' ' :: n.chars) pos = services := by
      have hblank := eraseService_eq n.chars (services ++ [' ']) []
      rw [htake] at hlength
      rw [hlength] at hblank
      simpa [trimBlankEnd, trimBlankStart] using hblank
    simp only [herase, lineWords, h, Option.map_some]

end Line

/-! ### The file -/

section File
variable {n : ServiceName}

/-- What an edit should make of a line, with what it should make of the words. -/
def LineRight (change : List (List Char) → List (List Char)) (line line' : List Char) : Prop :=
  lineWords line' = (lineWords line).map change ∧ (serviceList line = none → line' = line)

/-- What adding and removing the name should make of a line. -/
def LineRestored (n : ServiceName) (line line' : List Char) : Prop :=
  (∀ ws, lineWords line = some ws → n.chars ∉ ws → lineWords line' = some ws) ∧
    (serviceList line = none → line' = line)

/-- The edits of a file do what they should, line by line. -/
structure RcConfRight (n : ServiceName) (conf : RcConf) : Prop where
  disable : List.Forall₂ (LineRight n.without) (getlines '\n' conf.text)
    (getlines '\n' (modifyRcConf n.chars false conf).1.text)
  enable : List.Forall₂ (LineRight n.added) (getlines '\n' conf.text)
    (getlines '\n' (modifyRcConf n.chars true conf).1.text)
  restore : List.Forall₂ (LineRestored n) (getlines '\n' conf.text)
    (getlines '\n' (modifyRcConf n.chars false (modifyRcConf n.chars true conf).1).1.text)

/-- A line that is reported as not modified is the line that was there. The file is written back
only when some line is modified. -/
theorem editLine_of_not_modified {name line : List Char} {enable : Bool}
    (h : (editLine name enable line).2 = false) : (editLine name enable line).1 = line := by
  unfold editLine at h ⊢
  split at h
  · rfl
  · split at h
    · cases h
    · cases h
    · rfl

/-- A line has no line break between its quotes. -/
theorem newline_not_mem_betweenQuotes {line services : List Char} (h : '\n' ∉ line)
    (hservices : betweenQuotes line = some services) : '\n' ∉ services := by
  unfold betweenQuotes at hservices
  simp only at hservices
  split at hservices
  · cases hservices
    intro hmem
    have hbehind := (List.rdropWhile_prefix _ _).subset ((List.dropLast_sublist _).subset hmem)
    exact h ((List.dropWhile_sublist _).subset (List.mem_of_mem_drop hbehind))
  · cases hservices

/-- A line that is written for services without a line break is one line. -/
theorem newline_not_mem_serviceLine {services : List Char} (h : '\n' ∉ services) :
    '\n' ∉ serviceLine services := by
  have hfront : '\n' ∉ cfgServices := by decide
  simp [serviceLine, hfront, h]

/-- An edited line is still one line, with no newline in it. -/
theorem newline_not_mem_editLine (n : ServiceName) (enable : Bool) {line : List Char}
    (h : '\n' ∉ line) : '\n' ∉ (editLine n.chars enable line).1 := by
  have hname : '\n' ∉ n.chars := fun hmem =>
    Bool.false_ne_true ((n.notSpace _ hmem).symm.trans (by decide))
  unfold editLine
  split
  · exact h
  · next services hlist =>
    have hservices : '\n' ∉ services := by
      unfold serviceList at hlist
      split at hlist
      · exact newline_not_mem_betweenQuotes h hlist
      · cases hlist
    split
    · exact newline_not_mem_serviceLine (by simp [hservices, hname])
    · refine newline_not_mem_serviceLine fun hmem => hservices ?_
      rcases List.mem_append.mp hmem with hmem | hmem
      · exact List.mem_of_mem_take hmem
      · exact List.mem_of_mem_drop hmem
    · exact h

/-- The lines behind an edit are the edited lines, also where nothing was written. -/
theorem getlines_modifyRcConf (n : ServiceName) (enable : Bool) (conf : RcConf) :
    getlines '\n' (modifyRcConf n.chars enable conf).1.text =
      (getlines '\n' conf.text).map fun line => (editLine n.chars enable line).1 := by
  unfold modifyRcConf
  simp only [List.any_map, List.map_map]
  split
  · refine getlines_unlines fun line hline => ?_
    obtain ⟨before, hbefore, rfl⟩ := List.mem_map.mp hline
    exact newline_not_mem_editLine n enable
      (separator_not_mem_getlines '\n' conf.text before hbefore)
  · next hnone =>
    -- Nothing was modified.
    rw [Bool.not_eq_true, List.any_eq_false] at hnone
    have hsame : ∀ line ∈ getlines '\n' conf.text, (editLine n.chars enable line).1 = line :=
      fun line hline => editLine_of_not_modified (by simpa using hnone line hline)
    exact (List.map_congr_left hsame).trans (List.map_id _) |>.symm

/-- A line without services is left alone, which is right for it. -/
theorem lineRight_of_other {enable : Bool} {line : List Char}
    (change : List (List Char) → List (List Char)) (h : serviceList line = none) :
    LineRight change line (editLine n.chars enable line).1 := by
  rw [editLine_of_other h, LineRight, lineWords, h]
  exact ⟨rfl, fun _ => rfl⟩

/-- The edits of a file do what they should exactly when the name is separable in every line of
services: what stands around its first place there lets an edit take it away and keep the other
words. -/
theorem rcConfRight_iff (n : ServiceName) (conf : RcConf) :
    RcConfRight n conf ↔ ∀ line ∈ getlines '\n' conf.text, ∀ services,
      serviceList line = some services → Separable n services := by
  constructor
  -- The right removal alone needs the name to be separable.
  · intro hright line hline services hservices
    have hdisable := hright.disable
    rw [getlines_modifyRcConf, List.forall₂_map_right_iff, List.forall₂_same] at hdisable
    exact (disable_iff hservices).mp (hdisable line hline).1
  · intro hsep
    constructor
    · rw [getlines_modifyRcConf, List.forall₂_map_right_iff, List.forall₂_same]
      intro line hline
      cases hservices : serviceList line with
      | none => exact lineRight_of_other n.without hservices
      | some services =>
        exact ⟨(disable_iff hservices).mpr (hsep line hline services hservices),
          fun h => by rw [hservices] at h; cases h⟩
    · rw [getlines_modifyRcConf, List.forall₂_map_right_iff, List.forall₂_same]
      intro line hline
      cases hservices : serviceList line with
      | none => exact lineRight_of_other n.added hservices
      | some services =>
        exact ⟨enable_of_separable hservices (hsep line hline services hservices),
          fun h => by rw [hservices] at h; cases h⟩
    · rw [getlines_modifyRcConf, getlines_modifyRcConf, List.map_map, List.forall₂_map_right_iff,
        List.forall₂_same]
      intro line hline
      cases hservices : serviceList line with
      | none =>
        -- A line without services stays as it is, both times.
        have hsame : (editLine n.chars false (editLine n.chars true line).1).1 = line := by
          rw [editLine_of_other hservices, editLine_of_other hservices]
        rw [Function.comp_apply, hsame]
        exact ⟨fun _ hws _ => hws, fun _ => rfl⟩
      | some services =>
        refine ⟨fun ws hws hnot => ?_, fun h => by rw [hservices] at h; cases h⟩
        have hwords := hws
        rw [lineWords, hservices, Option.map_some, Option.some.injEq] at hwords
        subst hwords
        exact (restore_of_separable hservices (hsep line hline services hservices) hnot).trans hws

end File

section Sample

/-- The name of the agent's own service, `thinr-agent`, which is neither empty nor has a blank in
it. -/
def sampleServiceName : ServiceName where
  chars := "thinr-agent".toList
  ne_nil := by decide
  notSpace c hc := by
    have hall : "thinr-agent".toList.all (fun c => !isSpaceChar c) = true := by decide +kernel
    simpa using List.all_eq_true.mp hall c hc

/-- A file with the agent between two other services. -/
def sampleRcConf : RcConf := { text := "cfg_services=\"network thinr-agent sshd\"\n".toList }

/-- The neighbours of a name in the middle become one word. -/
theorem not_rcConfRight_sample :
    String.ofList (modifyRcConf sampleServiceName.chars false sampleRcConf).1.text =
        "cfg_services=\"networksshd\"\n" ∧
      ¬RcConfRight sampleServiceName sampleRcConf := by
  have hlines : getlines '\n' (modifyRcConf sampleServiceName.chars false sampleRcConf).1.text =
      ["cfg_services=\"networksshd\"".toList] := by decide +kernel
  refine ⟨by decide +kernel, fun hright => ?_⟩
  have hline := hright.disable
  rw [hlines, show getlines '\n' sampleRcConf.text =
    ["cfg_services=\"network thinr-agent sshd\"".toList] by decide +kernel] at hline
  obtain ⟨hwords, -⟩ := (List.forall₂_cons.mp hline).1
  exact absurd hwords (by decide +kernel)

end Sample

end ThinrAgent
