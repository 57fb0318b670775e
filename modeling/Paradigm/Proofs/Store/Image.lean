import Mathlib
import Paradigm.Proofs.Locale
import Paradigm.Proofs.Store.Words.Building

/-!
# Dictionaries as files

A lexicon that meets the demands is compiled to a file, from which its tables are loaded again.  The
language is read up to its first zero, but no language that can be read has a zero before its fourth
byte, so that it is stored in the same way after it was loaded.

The tables follow from the bytes that are read.  A file that ends before them is too short, and what
comes behind them is not looked at.

## Main definitions

* `Lexicon.CompiledTo`: a lexicon is compiled to a file, from which given tables are loaded

## Main results

* `WordStore.languageBytes_takeWhile`: languages that are cut at a zero
* `Lexicon.exists_compiledTo`: what is loaded from a compiled lexicon
* `WordStore.exists_decidedBy`, `Lexicon.CompiledTo.decidedBy`: files that are cut
-/

namespace Paradigm

open Text (Encoding)

/-! ## Stored languages -/

namespace WordStore

variable {language : String} {code : List UInt8}

/-- The part of a language that is read again: the characters before the first zero. -/
def cutLanguage (language : String) : String :=
  String.ofList (language.toList.takeWhile (· ≠ '\x00'))

/-- A stored language is read up to its first zero. -/
theorem languageOfBytes_eq_ok (h : languageBytes language = .ok code) :
    languageOfBytes code = .ok (cutLanguage language) := by
  unfold languageBytes at h
  dsimp only at h
  split at h
  · cases h
  · obtain rfl := Except.ok.inj h
    have hdecode := Encoding.decode_encode .utf8 (cutLanguage language)
    rw [Encoding.encode, cutLanguage, String.toList_ofList] at hdecode
    rw [languageOfBytes, Encoding.encode, Encoding.takeWhile_utf8, hdecode]
    rfl

theorem ne_zero_of_isSeparator (c : Char) (hc : Locale.isSeparator c) : decide (c ≠ '\x00') := by
  refine decide_eq_true ?_
  rintro rfl
  exact absurd hc (by decide)

theorem ne_zero_of_isAlpha (c : Char) (hc : c.isAlpha) : decide (c ≠ '\x00') := by
  refine decide_eq_true ?_
  rintro rfl
  exact absurd hc (by decide)

/-- A language that is cut at a zero is a locale identifier like the whole language. -/
theorem parse_cutLanguage (h : ∃ locale, Locale.parse language = .ok locale) :
    ∃ locale, Locale.parse (cutLanguage language) = .ok locale :=
  Locale.parse_takeWhile ne_zero_of_isSeparator ne_zero_of_isAlpha h

/-- No character is stored in less than a byte. -/
theorem length_le_length_encode (cs : List Char) :
    cs.length ≤ (cs.flatMap String.utf8EncodeChar).length := by
  induction cs with
  | nil => exact le_rfl
  | cons c cs ih =>
    have hpos : 0 < (String.utf8EncodeChar c).length := by
      rw [String.length_utf8EncodeChar]
      exact c.utf8Size_pos
    rw [List.flatMap_cons, List.length_append, List.length_cons]
    omega

/-- Of a language that can be stored and read, nothing but a zero behind three bytes is cut off, and
zeros fill the code up in any case. -/
theorem languageBytes_cutLanguage (hcode : languageBytes language = .ok code)
    (h : ∃ locale, Locale.parse language = .ok locale) :
    languageBytes (cutLanguage language) = languageBytes language := by
  have hsplit := List.takeWhile_append_dropWhile (p := (· ≠ '\x00')) (l := language.toList)
  cases hcut : language.toList.dropWhile (· ≠ '\x00') with
  | nil =>
    rw [hcut, List.append_nil] at hsplit
    rw [cutLanguage, hsplit, String.ofList_toList]
  | cons c rest =>
    have hthree := Locale.three_le_length_takeWhile ne_zero_of_isSeparator ne_zero_of_isAlpha h
      (by rw [hcut]; exact List.cons_ne_nil c rest)
    rw [hcut] at hsplit
    generalize hkept : language.toList.takeWhile (· ≠ '\x00') = kept at hthree hsplit
    have hzero : c = '\x00' := by
      have hhead := List.head?_dropWhile_not (· ≠ '\x00') language.toList
      rw [hcut, List.head?_cons] at hhead
      simpa using hhead
    -- the language has four bytes at most, so that the zero is the last one
    have hfour : (Encoding.utf8.encode language).length ≤ languageLength := by
      unfold languageBytes at hcode
      dsimp only at hcode
      split at hcode
      · cases hcode
      · omega
    have hlength := (length_le_length_encode language.toList).trans hfour
    rw [← hsplit, List.length_append, List.length_cons, languageLength] at hlength
    obtain rfl : rest = [] := List.length_eq_zero_iff.1 (by omega)
    have hencode : Encoding.utf8.encode language =
        Encoding.utf8.encode (cutLanguage language) ++ [0] := by
      rw [Encoding.encode, Encoding.encode, cutLanguage, String.toList_ofList, hkept, ← hsplit,
        hzero, List.flatMap_append]
      rfl
    rw [hencode, List.length_append, List.length_singleton] at hfour
    have hfill : languageLength - (Encoding.utf8.encode (cutLanguage language)).length =
        languageLength - ((Encoding.utf8.encode (cutLanguage language)).length + 1) + 1 := by
      omega
    unfold languageBytes
    dsimp only
    rw [hencode, List.length_append, List.length_singleton, if_neg (by omega), if_neg (by omega),
      hfill, List.replicate_succ, List.append_assoc, List.singleton_append]

end WordStore

/-! ## Compiled lexicons -/

/-- A lexicon meets the demands and is compiled to a file, which holds the tables that are given as
they are read: these stand for the lexicon, and are written to the same file. -/
structure Lexicon.CompiledTo (l : Lexicon) (image : View) (s : WordStore) : Prop where
  check : ∃ u, l.check = .ok u
  stores : ∃ maps slots data, s.Stores l maps slots data
  locale : ∃ locale, Locale.parse s.language = .ok locale
  written : ∃ out, s.write .empty = .ok out ∧ out.toView = image ∧
    ReadsBack .empty out WordStore.read s
  long : WordStore.minimumSize ≤ image.size

namespace Lexicon

variable {l : Lexicon} {image : View} {s : WordStore}

theorem exists_compiledTo (h : l.compile = .ok image) : ∃ s, l.CompiledTo image s := by
  obtain ⟨s, hs, h⟩ := Except.bind_eq_ok.1 h
  obtain ⟨out, hout, h⟩ := Except.bind_eq_ok.1 h
  obtain rfl := Except.ok.inj h
  rw [liftM_eq_ok] at hout
  obtain ⟨hlanguage, hlocale, maps, slots, data, hstores⟩ := WordStore.stores_of_ofLexicon hs
  rw [← hlanguage] at hlocale
  obtain ⟨code, hcode, -⟩ := Except.bind_eq_ok.1 hout
  obtain ⟨valueSize, suffixSize, hread⟩ :=
    WordStore.readsBack_write hstores hcode (WordStore.languageOfBytes_eq_ok hcode) hout
  have hcut := WordStore.languageBytes_cutLanguage hcode hlocale
  refine ⟨s.mappedForm (WordStore.cutLanguage s.language) valueSize suffixSize, ?_⟩
  constructor
  case check => exact WordStore.check_of_ofLexicon hs
  case stores => exact ⟨maps, slots, data, hstores.mappedForm _ _ _⟩
  case locale => exact WordStore.parse_cutLanguage hlocale
  case written =>
    refine ⟨out, ?_, rfl, hread⟩
    rw [WordStore.write_mappedForm s hcut]
    exact hout
  case long =>
    have hsize := WordStore.minimumSize_le_of_write hstores hout
    have hempty : Writer.empty.position = 0 := rfl
    rw [hempty, Nat.zero_add] at hsize
    exact hsize

namespace CompiledTo

theorem reserved_not_mem (h : l.CompiledTo image s) :
    ∀ w ∈ l.words, inflectionProperty ∉ w.properties.names := by
  obtain ⟨u, hcheck⟩ := h.check
  exact (check_eq_ok hcheck).2

/-- The tables are those in the file. -/
theorem load_eq_ok (h : l.CompiledTo image s) : WordStore.load image = .ok s := by
  obtain ⟨out, -, rfl, hread⟩ := h.written
  rw [WordStore.load, if_neg (Nat.not_lt.2 h.long), hread.run]

/-- Writing what was loaded gives the file again. -/
theorem write_eq_ok (h : l.CompiledTo image s) : Writer.toView <$> s.write .empty = .ok image := by
  obtain ⟨out, hout, rfl, -⟩ := h.written
  rw [hout]
  rfl

end CompiledTo

end Lexicon

/-! ## Files that are cut -/

namespace WordStore

/-- What is loaded is decided by the bytes that are read and by those that no dictionary lacks. -/
theorem decidedBy_of_passes {file : View} {s : WordStore} {q : Nat} (h : Passes read file 0 s q)
    (hq : q ≤ file.size) (hlong : minimumSize ≤ file.size) :
    DecidedBy load file s (max q minimumSize) where
  le := max_le hq hlong
  extended := by
    intro longer hlonger
    have hsize := View.le_size_of_take (max_le hq hlong) hlonger
    have hfirst : file.toList.take q <+: file.toList.take (max q minimumSize) :=
      List.take_prefix_take_left (le_max_left _ _)
    rw [load, if_neg (Nat.not_lt.2 ((le_max_right _ _).trans hsize)),
      (h.extended longer (hfirst.trans hlonger)).run]
  truncated := by
    intro cut hcut hlt
    rcases Nat.lt_or_ge cut.size minimumSize with hshort | hlong'
    · exact ⟨minimumSize, if_pos hshort⟩
    -- a file that can hold the start of a dictionary ends while it is read
    · have hread : cut.size < q := by omega
      obtain ⟨expected, c, hc⟩ :=
        h.truncated cut (hcut.trans (List.take_prefix _ _)) hread (Nat.zero_le _)
      refine ⟨expected, ?_⟩
      rw [load, if_neg (Nat.not_lt.2 hlong')]
      exact Reader.run_eq_error hc

/-- The first bytes of every dictionary decide what is loaded from it. -/
theorem exists_decidedBy {file : View} {s : WordStore} (h : load file = .ok s) :
    ∃ c, DecidedBy load file s c := by
  unfold load at h
  split at h
  · cases h
  · rename_i hlong
    obtain ⟨c, hc⟩ := Reader.run_eq_ok.1 h
    obtain ⟨hview, hpasses⟩ := local_read _ _ _ hc
    have hstop : c.position ≤ file.size := by
      have hle := c.position_le
      rwa [hview] at hle
    exact ⟨_, decidedBy_of_passes hpasses hstop (Nat.not_lt.1 hlong)⟩

/-- What is loaded does not depend on where the bytes of the file are held. -/
theorem load_congr {file file' : View} {s : WordStore} (h : load file = .ok s)
    (hbytes : file.bytes = file'.bytes) : load file' = .ok s := by
  obtain ⟨c, hc⟩ := exists_decidedBy h
  refine hc.extended file' ?_
  rw [View.toList, View.toList, hbytes]
  exact List.take_prefix c _

end WordStore

/-- A compiled lexicon is decided by its whole file. -/
theorem Lexicon.CompiledTo.decidedBy {l : Lexicon} {image : View} {s : WordStore}
    (h : l.CompiledTo image s) : DecidedBy WordStore.load image s image.size := by
  obtain ⟨out, -, rfl, hread⟩ := h.written
  obtain ⟨hq, hok⟩ := hread.reads out.toView (by simp) (Nat.zero_le _)
  obtain ⟨-, hpasses⟩ := WordStore.local_read _ _ _ hok
  have hdecided : DecidedBy WordStore.load out.toView s
      (max out.toView.size WordStore.minimumSize) :=
    WordStore.decidedBy_of_passes hpasses hq h.long
  rwa [max_eq_left h.long] at hdecided

end Paradigm
