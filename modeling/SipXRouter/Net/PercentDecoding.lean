import SipXRouter.Net.UrlParams

/-!
# Percent decoding

What `HttpMessage::unescape` makes of a text whose escapes are well formed.  A plus sign stands
for a blank, and an escape that the end of the text cuts short ends it.  Where two bytes behind
a percent sign are no hexadecimal digits the scan goes on with what an earlier escape has left,
and an escaped NUL ends the C string that is put in place of the text; of such escapes nothing is
said here.
-/

namespace SipXRouter

open List

/-- The decodings of a text, byte by byte. -/
inductive Decodes : Text → Text → Prop
  | nil : Decodes [] []
  | plain {c : Byte} {s t : Text} (hplus : c ≠ byte '+') (hpercent : c ≠ byte '%')
      (h : Decodes s t) : Decodes (c :: s) (c :: t)
  | blank {s t : Text} (h : Decodes s t) : Decodes (byte '+' :: s) (byte ' ' :: t)
  | escaped {high low : Byte} {s t : Text} (hhigh : isHex high = true) (hlow : isHex low = true)
      (h : Decodes s t) :
      Decodes (byte '%' :: high :: low :: s) ((hexByte high * 16 + hexByte low) :: t)
  | cut {s : Text} (h : s.length < 2) : Decodes (byte '%' :: s) []

/-- Every two bytes behind a percent sign are the digits of a byte, which is not NUL. -/
def WellEscaped (s : Text) : Prop :=
  ∀ high low, [byte '%', high, low] <:+: s →
    isHex high = true ∧ isHex low = true ∧ hexByte high * 16 + hexByte low ≠ 0

theorem WellEscaped.of_cons {c : Byte} {s : Text} (h : WellEscaped (c :: s)) : WellEscaped s :=
  fun high low hpart => h high low (hpart.trans (suffix_cons c s).isInfix)

/-- On well escaped texts the loop decodes. -/
theorem decodes_unescapeLoop (escaped : Byte) (s : Text) (hs : WellEscaped s) :
    Decodes s (unescapeLoop escaped s) := by
  induction escaped, s using unescapeLoop.induct with
  | case1 escaped => exact .nil
  | case2 escaped cs ih =>
    rw [unescapeLoop.eq_def]
    exact .blank (ih hs.of_cons)
  | case3 escaped hne => exact .cut (by simp)
  | case4 escaped c hne => exact .cut (by simp)
  | case5 escaped high low rest first second hne ih =>
    obtain ⟨hhigh, hlow, -⟩ := hs high low ⟨[], rest, rfl⟩
    have hsecond : second = hexByte high * 16 + hexByte low := by
      simp only [second, first, hhigh, hlow, if_true]
    rw [unescapeLoop.eq_def]
    simp only [hhigh, hlow, if_true]
    exact .escaped hhigh hlow (hsecond ▸ ih hs.of_cons.of_cons.of_cons)
  | case6 escaped c cs hplus hpercent ih =>
    rw [unescapeLoop.eq_def]
    simp only [hplus, hpercent, if_false]
    exact .plain hplus hpercent (ih hs.of_cons)

theorem Decodes.zero_notMem {s t : Text} (h : Decodes s t) (hs : WellEscaped s)
    (hnul : (0 : Byte) ∉ s) : (0 : Byte) ∉ t := by
  induction h with
  | nil => exact hnul
  | plain hplus hpercent h ih =>
    rw [mem_cons, not_or] at hnul ⊢
    exact ⟨hnul.1, ih hs.of_cons hnul.2⟩
  | blank h ih =>
    rw [mem_cons, not_or] at hnul ⊢
    exact ⟨by decide, ih hs.of_cons hnul.2⟩
  | escaped hhigh hlow h ih =>
    obtain ⟨-, -, hne⟩ := hs _ _ ⟨[], _, rfl⟩
    simp only [mem_cons, not_or] at hnul ⊢
    exact ⟨hne.symm, ih hs.of_cons.of_cons.of_cons hnul.2.2.2⟩
  | cut hcut => exact not_mem_nil

theorem zero_notMem_cString (s : Text) : (0 : Byte) ∉ cString s := by
  intro hmem
  simpa using mem_takeWhile_imp hmem

/-- **Decoding.**  Up to the first NUL a text with well-formed escapes is decoded, and what is
written with escapes is read again up to its first NUL. -/
theorem decodes_unescape {s : Text} (hs : WellEscaped (cString s)) :
    Decodes (cString s) (unescape s) ∧ ∀ v, unescape (escape v) = cString v := by
  have hdecodes := decodes_unescapeLoop 255 (cString s) hs
  have hnul := hdecodes.zero_notMem hs (zero_notMem_cString s)
  have htake : (unescapeLoop 255 (cString s)).takeWhile (· ≠ 0) = unescapeLoop 255 (cString s) := by
    rw [takeWhile_eq_self_iff]
    intro c hc
    rw [decide_eq_true_iff]
    rintro rfl
    exact hnul hc
  refine ⟨?_, unescape_escape_eq⟩
  rw [unescape, htake, take_left]
  exact hdecodes

theorem decodes_unescape_letter :
    Decodes (cString (text "%41")) (unescape (text "%41")) ∧
      ∀ v, unescape (escape v) = cString v := by
  refine decodes_unescape fun high low hpart => ?_
  obtain ⟨rfl, rfl⟩ : high = byte '4' ∧ low = byte '1' := by
    have heq : [byte '%', high, low] = [byte '%', byte '4', byte '1'] := hpart.eq_of_length rfl
    simpa using heq
  decide

/-- A plus sign is not kept, and a NUL is not read again. -/
theorem unescape_plus : unescape (text "+") ≠ text "+" ∧ unescape (escape [0]) ≠ [0] := by
  decide

end SipXRouter
