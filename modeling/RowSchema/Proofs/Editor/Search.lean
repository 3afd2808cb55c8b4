import Mathlib.Algebra.Group.Nat.Even
import RowSchema.Proofs.Editor.Faults

/-! # The search for names of records

The search goes from left to right, and what a match takes up is not searched again. So the keyword
of a record starts a match unless an earlier match takes it for a name. That depends on how many
such keywords, each with blanks after it, the text before it ends with. -/

namespace RowSchema.Editor

open Text Token

/-! ## Matches -/

/-- The name that is found at the beginning of a text, and where it ends. There is none within a
word. -/
def nameHere? (inWord : Bool) (s : List Char) : Option (String × Nat) :=
  if inWord then none else recordKeywords.findSome? (nameAfter? s)

/-- The names that are found, each with the place of the keyword before it. -/
def hitsFrom (place : Nat) (inWord : Bool) : (skip : Nat) → List Char → List (Nat × String)
  | _, [] => []
  | skip + 1, c :: rest => hitsFrom (place + 1) (isWordChar c) skip rest
  | 0, c :: rest =>
    match nameHere? inWord (c :: rest) with
    | some (name, stop) => (place, name) :: hitsFrom (place + 1) (isWordChar c) (stop - 1) rest
    | none => hitsFrom (place + 1) (isWordChar c) 0 rest

/-- The names of the records that a text seems to declare, each with the place of its keyword. -/
def hits (source : String) : List (Nat × String) := hitsFrom 0 false 0 source.toList

theorem map_hitsFrom (place : Nat) (inWord : Bool) (skip : Nat) (s : List Char) :
    (hitsFrom place inWord skip s).map Prod.snd = namesFrom inWord skip s := by
  induction s generalizing place inWord skip with
  | nil => cases skip <;> rfl
  | cons c rest ih =>
    cases skip with
    | succ skip => exact ih _ _ _
    | zero =>
      rw [hitsFrom, namesFrom, ← nameHere?]
      cases nameHere? inWord (c :: rest) with
      | none => exact ih _ _ _
      | some found => exact congrArg (found.1 :: ·) (ih _ _ _)

theorem map_hits (source : String) : (hits source).map Prod.snd = recordNames source :=
  map_hitsFrom 0 false 0 source.toList

theorem place_le_of_mem_hitsFrom {place place' skip : Nat} {inWord : Bool} {s : List Char}
    {name : String} (h : (place', name) ∈ hitsFrom place inWord skip s) : place ≤ place' := by
  induction s generalizing place inWord skip with
  | nil => cases skip <;> cases h
  | cons c rest ih =>
    cases skip with
    | succ skip => exact Nat.le_of_succ_le (ih h)
    | zero =>
      rw [hitsFrom] at h
      split at h
      · rcases List.mem_cons.mp h with heq | h
        · exact Nat.le_of_eq (Prod.mk.inj heq).1.symm
        · exact Nat.le_of_succ_le (ih h)
      · exact Nat.le_of_succ_le (ih h)

/-! ## Skipped characters -/

/-- Whether a text ends within a word. -/
def endsInWord (inWord : Bool) (before : List Char) : Bool :=
  (before.getLast?.map isWordChar).getD inWord

@[simp] theorem endsInWord_nil (inWord : Bool) : endsInWord inWord [] = inWord := rfl

@[simp] theorem endsInWord_cons (inWord : Bool) (c : Char) (before : List Char) :
    endsInWord inWord (c :: before) = endsInWord (isWordChar c) before := by
  cases before with
  | nil => rfl
  | cons d before => rw [endsInWord, endsInWord, List.getLast?_cons_cons, List.getLast?_cons]; rfl

theorem endsInWord_append {inWord : Bool} (before : List Char) {more : List Char}
    (h : more ≠ []) : endsInWord inWord (before ++ more) = endsInWord inWord more := by
  rw [endsInWord, endsInWord, List.getLast?_append_of_ne_nil before h]

/-- How many characters are still skipped at the end of a text, with that one after it. -/
def skipAfter (inWord : Bool) : (skip : Nat) → (before after : List Char) → Nat
  | skip, [], _ => skip
  | skip + 1, c :: before, after => skipAfter (isWordChar c) skip before after
  | 0, c :: before, after =>
    skipAfter (isWordChar c)
      ((nameHere? inWord (c :: (before ++ after))).elim 0 fun found => found.2 - 1) before after

theorem skipAfter_append (inWord : Bool) (skip : Nat) (before more after : List Char) :
    skipAfter inWord skip (before ++ more) after =
      skipAfter (endsInWord inWord before) (skipAfter inWord skip before (more ++ after)) more
        after := by
  induction before generalizing inWord skip with
  | nil => cases skip <;> rfl
  | cons c before ih =>
    cases skip with
    | succ skip => simpa [skipAfter] using ih _ _
    | zero => simpa [skipAfter] using ih _ _

theorem skipAfter_length_add (inWord : Bool) (before after : List Char) (n : Nat) :
    skipAfter inWord (before.length + n) before after = n := by
  induction before generalizing inWord with
  | nil => rw [List.length_nil, Nat.zero_add]; cases n <;> rfl
  | cons c before ih =>
    rw [List.length_cons, Nat.succ_add]
    exact ih _

/-- A match that goes beyond a text leaves the rest of it to be skipped. -/
theorem skipAfter_of_found {before more after : List Char} {name : String} {n : Nat}
    (hskip : skipAfter false 0 before (more ++ after) = 0) (hmore : more ≠ [])
    (hfound : nameHere? (endsInWord false before) (more ++ after) = some (name, more.length + n)) :
    skipAfter false 0 (before ++ more) after = n := by
  obtain ⟨c, more, rfl⟩ := List.exists_cons_of_ne_nil hmore
  have hstop : (c :: more).length + n - 1 = more.length + n := by
    rw [List.length_cons]
    omega
  rw [List.cons_append] at hfound
  rw [skipAfter_append, hskip, skipAfter, hfound, Option.elim_some, hstop]
  exact skipAfter_length_add _ more after n

/-- Characters are skipped because of a match that goes on there. -/
theorem exists_of_skipAfter {before after : List Char} {n : Nat}
    (h : skipAfter false 0 before after = n + 1) : ∃ front more name, before = front ++ more ∧
      more ≠ [] ∧ skipAfter false 0 front (more ++ after) = 0 ∧
      nameHere? (endsInWord false front) (more ++ after) = some (name, more.length + (n + 1)) := by
  induction before using List.reverseRecOn generalizing after n with
  | nil => cases h
  | append_singleton before c ih =>
    rw [skipAfter_append] at h
    cases hskip : skipAfter false 0 before ([c] ++ after) with
    | succ m =>
      rw [hskip] at h
      obtain rfl : m = n + 1 := h
      obtain ⟨front, more, name, rfl, hmore, hfront, hfound⟩ := ih hskip
      refine ⟨front, more ++ [c], name, by simp, by simp, by simpa using hfront, ?_⟩
      rw [List.append_assoc, hfound, List.length_append, List.length_singleton]
      congr 2
      omega
    | zero =>
      rw [hskip, skipAfter] at h
      cases hfound : nameHere? (endsInWord false before) ([c] ++ after) with
      | none =>
        rw [List.nil_append, ← List.singleton_append, hfound] at h
        cases h
      | some found =>
        rw [List.nil_append, ← List.singleton_append, hfound] at h
        obtain ⟨name, stop⟩ := found
        have hstop : stop - 1 = n + 1 := h
        refine ⟨before, [c], name, rfl, by simp, hskip, ?_⟩
        rw [hfound, List.length_singleton]
        congr 2
        omega

/-- There is a match after a text unless characters are skipped there. -/
theorem mem_hitsFrom_iff {place skip : Nat} {inWord : Bool} {before after : List Char}
    {name : String} : (place + before.length, name) ∈ hitsFrom place inWord skip (before ++ after) ↔
      skipAfter inWord skip before after = 0 ∧
        ∃ stop, nameHere? (endsInWord inWord before) after = some (name, stop) := by
  induction before generalizing place inWord skip with
  | nil =>
    have hlater {skip : Nat} {inWord : Bool} {rest : List Char} :
        (place, name) ∉ hitsFrom (place + 1) inWord skip rest :=
      fun h => absurd (place_le_of_mem_hitsFrom h) (Nat.not_succ_le_self place)
    have hskip : skipAfter inWord skip [] after = skip := by cases skip <;> rfl
    rw [hskip, endsInWord_nil, List.length_nil, Nat.add_zero, List.nil_append]
    cases after with
    | nil =>
      have hnone : nameHere? inWord [] = none := by cases inWord <;> rfl
      rw [hnone]
      cases skip <;> exact ⟨nofun, fun h => nomatch h.2⟩
    | cons c rest =>
      cases skip with
      | succ skip => exact ⟨fun h => absurd h hlater, fun h => nomatch h.1⟩
      | zero =>
        rw [hitsFrom]
        cases nameHere? inWord (c :: rest) with
        | none => exact ⟨fun h => absurd h hlater, fun h => nomatch h.2⟩
        | some found => simp [hlater, Prod.ext_iff, eq_comm]
  | cons c before ih =>
    have hplace : place + (c :: before).length = place + 1 + before.length := by
      rw [List.length_cons]
      omega
    rw [hplace, endsInWord_cons, List.cons_append]
    cases skip with
    | succ skip => exact ih
    | zero =>
      rw [hitsFrom, skipAfter]
      cases nameHere? inWord (c :: (before ++ after)) with
      | none => exact ih
      | some found =>
        refine List.mem_cons.trans ((or_iff_right fun heq => ?_).trans ih)
        have hlater := (Prod.mk.inj heq).1
        omega

/-! ## Keywords, blanks and names -/

theorem isWordChar_of_mem_text {k : Keyword} (hk : k ∈ recordKeywords) :
    ∀ c ∈ k.text.toList, isWordChar c = true := by
  simp only [recordKeywords, List.mem_cons, List.not_mem_nil, or_false] at hk
  rcases hk with rfl | rfl | rfl <;> exact List.all_eq_true.mp (by decide)

theorem isBlank_of_head_text {k : Keyword} (hk : k ∈ recordKeywords) :
    ∃ c rest, k.text.toList = c :: rest ∧ isBlank c = false := by
  simp only [recordKeywords, List.mem_cons, List.not_mem_nil, or_false] at hk
  rcases hk with rfl | rfl | rfl <;> exact ⟨_, _, rfl, by decide⟩

/-- The keywords begin with different letters. -/
theorem nameHere?_text {k : Keyword} (hk : k ∈ recordKeywords) (s : List Char) :
    nameHere? false (k.text.toList ++ s) = nameAfter? (k.text.toList ++ s) k := by
  have hother {k' : Keyword} {c d : Char} {cs ds : List Char} (hd : k'.text.toList = d :: ds)
      (hne : d ≠ c) : nameAfter? (c :: cs) k' = none := by
    rw [nameAfter?, hd, after?_of_ne hne]
  have hstruct : Keyword.structWord.text.toList = 's' :: "truct".toList := rfl
  have henum : Keyword.enumWord.text.toList = 'e' :: "num".toList := rfl
  have hclass : Keyword.classWord.text.toList = 'c' :: "lass".toList := rfl
  simp only [recordKeywords, List.mem_cons, List.not_mem_nil, or_false] at hk
  rw [nameHere?, if_neg Bool.false_ne_true, recordKeywords]
  rcases hk with rfl | rfl | rfl
  · rw [hstruct, List.cons_append, List.findSome?_cons, List.findSome?_cons, List.findSome?_cons,
      hother henum (by decide), hother hclass (by decide)]
    cases nameAfter? ('s' :: ("truct".toList ++ s)) .structWord <;> rfl
  · rw [henum, List.cons_append, List.findSome?_cons, List.findSome?_cons, List.findSome?_cons,
      hother hstruct (by decide), hother hclass (by decide)]
    cases nameAfter? ('e' :: ("num".toList ++ s)) .enumWord <;> rfl
  · rw [hclass, List.cons_append, List.findSome?_cons, List.findSome?_cons, List.findSome?_cons,
      hother hstruct (by decide), hother henum (by decide)]
    cases nameAfter? ('c' :: ("lass".toList ++ s)) .classWord <;> rfl

theorem exists_of_nameAfter? {s : List Char} {k : Keyword} {name : String} {stop : Nat}
    (h : nameAfter? s k = some (name, stop)) : ∃ blanks word rest,
      s = k.text.toList ++ blanks ++ (word ++ rest) ∧ blanks ≠ [] ∧
      (∀ c ∈ blanks, isBlank c = true) ∧ (∀ c ∈ word, isWordChar c = true) ∧
      stop = (k.text.toList ++ blanks).length + word.length := by
  unfold nameAfter? at h
  split at h
  · cases h
  · next rest hrest =>
    dsimp only at h
    split at h
    · cases h
    · next hnonempty =>
      rw [Bool.or_eq_true, not_or] at hnonempty
      obtain ⟨-, rfl⟩ := Prod.mk.inj (Option.some.inj h)
      unfold after? at hrest
      split at hrest
      · next hprefix =>
        obtain rfl := Option.some.inj hrest
        obtain ⟨rest, rfl⟩ := List.isPrefixOf_iff_prefix.mp hprefix
        rw [List.drop_left] at hnonempty ⊢
        refine ⟨rest.takeWhile isBlank, (rest.dropWhile isBlank).takeWhile isWordChar,
          (rest.dropWhile isBlank).dropWhile isWordChar, ?_, by simpa using hnonempty.1,
          fun c => List.mem_takeWhile_imp, fun c => List.mem_takeWhile_imp, ?_⟩
        · rw [List.takeWhile_append_dropWhile, List.append_assoc, List.takeWhile_append_dropWhile]
        · rw [List.length_append, String.length_toList]
      · cases hrest

/-- After the keyword there is a name if nothing but blanks comes before it. -/
theorem nameAfter?_eq {k : Keyword} {blanks word rest : List Char} (hblanks : blanks ≠ [])
    (hblank : ∀ c ∈ blanks, isBlank c = true) (hword : word ≠ [])
    (hwordChar : ∀ c ∈ word, isWordChar c = true)
    (hstart : (word ++ rest).head?.any isBlank = false)
    (hstop : rest.head?.any isWordChar = false) :
    nameAfter? (k.text.toList ++ (blanks ++ (word ++ rest))) k =
      some (String.ofList word, (k.text.toList ++ blanks).length + word.length) := by
  have htake := takeWhile_of_stop hblank hstart
  have hdrop : (blanks ++ (word ++ rest)).dropWhile isBlank = word ++ rest := by
    have hall := List.takeWhile_append_dropWhile (p := isBlank) (l := blanks ++ (word ++ rest))
    rw [htake] at hall
    exact List.append_cancel_left hall
  rw [nameAfter?, after?_append]
  dsimp only
  rw [hdrop, htake, takeWhile_of_stop hwordChar hstop, List.isEmpty_eq_false_iff.mpr hblanks,
    List.isEmpty_eq_false_iff.mpr hword, List.length_append, String.length_toList]
  rfl

/-! ## Keywords that wait for a name -/

/-- The second text is the first one with a keyword of a record, as a word of its own, and blanks
after it. -/
def Extends (before text : List Char) : Prop :=
  ∃ k ∈ recordKeywords, ∃ blanks, text = before ++ (k.text.toList ++ blanks) ∧
    endsInWord false before = false ∧ blanks ≠ [] ∧ ∀ c ∈ blanks, isBlank c = true

/-- The text ends with so many keywords of records, each with blanks after it, and no more. -/
inductive Dangling : Nat → List Char → Prop
  | none {text : List Char} (h : ∀ before, ¬ Extends before text) : Dangling 0 text
  | more {n : Nat} {before text : List Char} (h : Extends before text) (rest : Dangling n before) :
      Dangling (n + 1) text

/-- The keyword of a record comes next. -/
def Announces (after : List Char) : Prop := ∃ k ∈ recordKeywords, k.text.toList <+: after

theorem Announces.head {after : List Char} (h : Announces after) :
    ∃ c rest, after = c :: rest ∧ isBlank c = false ∧ isWordChar c = true := by
  obtain ⟨k, hk, rest, rfl⟩ := h
  obtain ⟨c, cs, htext, hblank⟩ := isBlank_of_head_text hk
  refine ⟨c, cs ++ rest, by rw [htext, List.cons_append], hblank, ?_⟩
  exact isWordChar_of_mem_text hk c (htext ▸ List.mem_cons_self)

/-- Where a text is split between characters that have a property and one that has not is
determined. -/
theorem append_left_unique {p : Char → Bool} {front back front' back' : List Char}
    (h : front ++ back = front' ++ back') (hback : ∀ c ∈ back, p c = true)
    (hback' : ∀ c ∈ back', p c = true) (hfront : front.getLast?.any p = false)
    (hfront' : front'.getLast?.any p = false) : front = front' := by
  have hends {front more back : List Char} (hall : ∀ c ∈ more ++ back, p c = true)
      (hlast : (front ++ more).getLast?.any p = false) : more = [] := by
    by_contra hne
    rw [List.getLast?_append_of_ne_nil _ hne, List.getLast?_eq_some_getLast hne, Option.any_some,
      hall _ (List.mem_append_left _ (List.getLast_mem hne))] at hlast
    cases hlast
  rcases List.append_eq_append_iff.mp h with ⟨more, rfl, rfl⟩ | ⟨more, rfl, rfl⟩
  · rw [hends hback hfront', List.append_nil]
  · rw [hends hback' hfront, List.append_nil]

theorem any_getLast?_eq (before : List Char) :
    before.getLast?.any isWordChar = endsInWord false before := by
  rw [endsInWord]
  cases before.getLast? <;> rfl

theorem getLast?_text {k : Keyword} (hk : k ∈ recordKeywords) :
    ∃ c, k.text.toList.getLast? = some c ∧ isBlank c = false := by
  simp only [recordKeywords, List.mem_cons, List.not_mem_nil, or_false] at hk
  rcases hk with rfl | rfl | rfl <;> exact ⟨_, rfl, by decide⟩

/-- The last keyword of a text is determined. -/
theorem Extends.unique {before before' text : List Char} (h : Extends before text)
    (h' : Extends before' text) : before = before' := by
  obtain ⟨k, hk, blanks, rfl, hend, -, hblanks⟩ := h
  obtain ⟨k', hk', blanks', heq, hend', -, hblanks'⟩ := h'
  have hlast {k : Keyword} (hk : k ∈ recordKeywords) (before : List Char) :
      (before ++ k.text.toList).getLast?.any isBlank = false := by
    obtain ⟨c, hc, hblank⟩ := getLast?_text hk
    rw [List.getLast?_append, hc]
    exact hblank
  rw [← List.append_assoc, ← List.append_assoc] at heq
  have hwords := append_left_unique heq hblanks hblanks' (hlast hk before) (hlast hk' before')
  refine append_left_unique hwords (isWordChar_of_mem_text hk) (isWordChar_of_mem_text hk') ?_ ?_
  · rw [any_getLast?_eq, hend]
  · rw [any_getLast?_eq, hend']

theorem exists_dangling (text : List Char) : ∃ n, Dangling n text := by
  induction hlength : text.length using Nat.strongRecOn generalizing text with
  | ind length ih =>
    by_cases h : ∃ before, Extends before text
    · obtain ⟨before, hextends⟩ := h
      have ⟨k, _, blanks, htext, _, hne, _⟩ := hextends
      have hlt : before.length < length := by
        rw [← hlength, htext, List.length_append, List.length_append]
        have hpos := List.length_pos_iff.mpr hne
        omega
      obtain ⟨n, hn⟩ := ih _ hlt before rfl
      exact ⟨n + 1, .more hextends hn⟩
    · exact ⟨0, .none fun before hextends => h ⟨before, hextends⟩⟩

/-- A match that begins in a text and takes a keyword after it for a name is a keyword itself, and
ends the text with blanks. -/
theorem extends_of_found {before more after : List Char} {name : String} {n : Nat}
    (hafter : Announces after) (hmore : more ≠ [])
    (hends : endsInWord false (before ++ more) = false)
    (h : nameHere? (endsInWord false before) (more ++ after) =
      some (name, more.length + (n + 1))) : Extends before (before ++ more) := by
  have hin : endsInWord false before = false := by
    by_contra hin
    rw [Bool.not_eq_false] at hin
    rw [hin] at h
    cases h
  rw [hin, nameHere?, if_neg Bool.false_ne_true] at h
  obtain ⟨k, hk, hname⟩ := List.exists_of_findSome?_eq_some h
  obtain ⟨blanks, word, rest, heq, hne, hblanks, hword, hstop⟩ := exists_of_nameAfter? hname
  -- no word goes on up to the end of the text
  have hlast {xs ys : List Char} (hsplit : more = xs ++ ys) (hys : ∀ c ∈ ys, isWordChar c = true) :
      ys = [] := by
    by_contra hnonempty
    rw [hsplit, ← any_getLast?_eq, ← List.append_assoc,
      List.getLast?_append_of_ne_nil _ hnonempty, List.getLast?_eq_some_getLast hnonempty,
      Option.any_some, hys _ (List.getLast_mem hnonempty)] at hends
    cases hends
  obtain ⟨c, tail, rfl, hblank, -⟩ := hafter.head
  suffices hsame : more = k.text.toList ++ blanks from
    ⟨k, hk, blanks, by rw [hsame], hin, hne, hblanks⟩
  rcases List.append_eq_append_iff.mp heq with ⟨xs, hkeyword, htail⟩ | ⟨xs, hmoreEq, hrest⟩
  · -- the text ends before the blanks do
    cases xs with
    | nil => rw [hkeyword, List.append_nil]
    | cons d xs =>
      obtain rfl : c = d := (List.cons.inj htail).1
      rcases List.append_eq_append_iff.mp hkeyword with ⟨ys, -, hsplit⟩ | ⟨ys, htext, -⟩
      · have hmem : c ∈ blanks := hsplit ▸ List.mem_append_right _ List.mem_cons_self
        rw [hblanks c hmem] at hblank
        cases hblank
      · refine absurd (hlast (List.nil_append _).symm fun d hd => ?_) hmore
        exact isWordChar_of_mem_text hk d (htext ▸ List.mem_append_left _ hd)
  · -- the text ends within the name
    have hshort : xs.length < word.length := by
      rw [hmoreEq, List.length_append] at hstop
      omega
    have hxs : ∀ c ∈ xs, isWordChar c = true := by
      rcases List.append_eq_append_iff.mp hrest with ⟨ys, rfl, -⟩ | ⟨ys, hword', -⟩
      · rw [List.length_append] at hshort
        omega
      · exact fun c hc => hword c (hword' ▸ List.mem_append_left _ hc)
    rw [hmoreEq, hlast hmoreEq hxs, List.append_nil]

/-- Where the keyword of a record comes next, nothing is skipped if the keywords before it pair off
with each other. -/
theorem skipAfter_eq_zero_iff {n : Nat} {before after : List Char} (h : Dangling n before)
    (hends : endsInWord false before = false) (hafter : Announces after) :
    skipAfter false 0 before after = 0 ↔ Even n := by
  have hextends {before : List Char} (hends : endsInWord false before = false)
      {after : List Char} (hafter : Announces after) (hskip : skipAfter false 0 before after ≠ 0) :
      ∃ front more, before = front ++ more ∧ skipAfter false 0 front (more ++ after) = 0 ∧
        Extends front before := by
    obtain ⟨m, hm⟩ := Nat.exists_eq_succ_of_ne_zero hskip
    obtain ⟨front, more, name, rfl, hmore, hfront, hfound⟩ := exists_of_skipAfter hm
    exact ⟨front, more, rfl, hfront, extends_of_found hafter hmore hends hfound⟩
  induction h generalizing after with
  | none hnone =>
    refine iff_of_true ?_ Even.zero
    by_contra hskip
    obtain ⟨front, -, -, -, hfront⟩ := hextends hends hafter hskip
    exact hnone front hfront
  | @more n front before hlast rest ih =>
    have ⟨k, hk, blanks, htext, hfront, hne, hblanks⟩ := hlast
    have hsame : skipAfter false 0 front (k.text.toList ++ blanks ++ after) = 0 ↔ Even n :=
      ih hfront ⟨k, hk, by rw [List.append_assoc]; exact List.prefix_append _ _⟩
    rw [Nat.even_add_one, ← hsame]
    constructor
    · intro hskip hzero
      -- the keyword takes the next one for a name
      obtain ⟨c, tail, rfl, hblank, hword⟩ := hafter.head
      have hfound : nameHere? (endsInWord false front) ((k.text.toList ++ blanks) ++ c :: tail) =
          some (String.ofList ((c :: tail).takeWhile isWordChar),
            (k.text.toList ++ blanks).length + ((c :: tail).takeWhile isWordChar).length) := by
        have hsplit := List.takeWhile_append_dropWhile (p := isWordChar) (l := c :: tail)
        rw [hfront, List.append_assoc, nameHere?_text hk]
        conv =>
          lhs
          rw [← hsplit]
        refine nameAfter?_eq hne hblanks ?_ (fun d => List.mem_takeWhile_imp) ?_ ?_
        · rw [List.takeWhile_cons_of_pos hword]
          exact List.cons_ne_nil _ _
        · rw [hsplit]
          exact hblank
        · exact (stop_of_takeWhile (by rw [hsplit])).2
      have hlong := skipAfter_of_found hzero (by simp [hne]) hfound
      rw [← htext, hskip, List.takeWhile_cons_of_pos hword] at hlong
      cases hlong
    · intro hzero
      by_contra hskip
      obtain ⟨front', more, rfl, hfront', hextends⟩ := hextends hends hafter hskip
      obtain rfl := hextends.unique hlast
      rw [List.append_cancel_left htext] at hfront'
      exact hzero hfront'

/-! ## Keywords with a name after them -/

theorem isWordChar_of_isNameChar {c : Char} (h : isNameChar c = true) : isWordChar c = true := by
  unfold isNameChar at h
  rw [Bool.or_eq_true] at h
  rw [isWordChar, Bool.or_eq_true]
  refine h.imp_left fun hletter => ?_
  have hascii : c.toNat < 0x80 := by
    rw [Char.isAlphanum, Bool.or_eq_true] at hletter
    rcases hletter with halpha | hdigit
    · have hstart : isNameStart c = true := by rw [isNameStart, halpha, Bool.true_or]
      exact (toNat_of_isNameStart hstart).2
    · rw [Char.isDigit, Bool.and_eq_true, decide_eq_true_eq, decide_eq_true_eq,
        UInt32.le_iff_toNat_le] at hdigit
      exact Nat.lt_of_le_of_lt hdigit.2 (by decide)
  rw [isAlphanumeric, if_pos hascii]
  exact hletter

theorem isBlank_of_isNameStart {c : Char} (h : isNameStart c = true) : isBlank c = false := by
  obtain ⟨hlow, hhigh⟩ := toNat_of_isNameStart h
  simp only [isBlank, Bool.or_eq_false_iff, Bool.and_eq_false_iff, decide_eq_false_iff_not,
    beq_eq_false_iff_ne]
  omega

theorem nameAfter?_eq_none {k : Keyword} {gap rest : List Char}
    (hgap : ¬ ∀ c ∈ gap, isBlank c = true)
    (hend : (gap.dropWhile isBlank).head?.any isWordChar = false) :
    nameAfter? (k.text.toList ++ (gap ++ rest)) k = none := by
  obtain ⟨c, tail, htail⟩ : ∃ c tail, gap.dropWhile isBlank = c :: tail := by
    refine List.exists_cons_of_ne_nil fun hnil => hgap ?_
    exact List.dropWhile_eq_nil_iff.mp hnil
  rw [htail] at hend
  have hword : isWordChar c = false := hend
  rw [nameAfter?, after?_append]
  dsimp only
  rw [List.dropWhile_append, htail]
  simp [hword]

/-- The keyword of a record, with a name after it, is found in the search if nothing but blanks
stands between the two and the keywords before it pair off with each other. -/
theorem mem_hits_iff {source : String} {k : Keyword} {before gap after : List Char}
    {name : String} {n : Nat}
    (hsource : source.toList = before ++ (k.text.toList ++ (gap ++ (name.toList ++ after))))
    (hk : k ∈ recordKeywords) (hends : endsInWord false before = false)
    (hdangling : Dangling n before) (hne : gap ≠ [])
    (hgap : (gap.dropWhile isBlank).head?.any isWordChar = false) (hname : IsName name)
    (hstop : after.head?.any isWordChar = false) :
    (before.length, name) ∈ hits source ↔ Even n ∧ ∀ c ∈ gap, isBlank c = true := by
  have hmem : (0 + before.length, name) ∈ hitsFrom 0 false 0
      (before ++ (k.text.toList ++ (gap ++ (name.toList ++ after)))) ↔ _ := mem_hitsFrom_iff
  rw [Nat.zero_add, ← hsource, hends, skipAfter_eq_zero_iff hdangling hends
    ⟨k, hk, List.prefix_append _ _⟩, nameHere?_text hk] at hmem
  refine hmem.trans (and_congr_right fun _ => ⟨fun ⟨stop, hfound⟩ => ?_, fun hblank => ?_⟩)
  · by_contra hblank
    rw [nameAfter?_eq_none hblank hgap] at hfound
    cases hfound
  · obtain ⟨c, more, hchars, hstart, hmore⟩ := hname
    have hwordChar : ∀ d ∈ name.toList, isWordChar d = true := by
      rw [hchars]
      exact List.forall_mem_cons.mpr ⟨isWordChar_of_isNameChar (isNameChar_of_isNameStart hstart),
        fun d hd => isWordChar_of_isNameChar (hmore d hd)⟩
    have hfound := nameAfter?_eq (k := k) hne hblank
      (by rw [hchars]; exact List.cons_ne_nil c more) hwordChar
      (by rw [hchars]; exact isBlank_of_isNameStart hstart) hstop
    rw [String.ofList_toList] at hfound
    exact ⟨_, hfound⟩

end RowSchema.Editor
