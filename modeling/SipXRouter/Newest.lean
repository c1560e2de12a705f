import Mathlib.Data.List.Perm.Basic
import Mathlib.Data.List.Nodup
import Mathlib.Order.Defs.LinearOrder
import Mathlib.Tactic

/-!
# Collecting the newest entry for each key

Entries arrive one after the other.  One that is taken to be the same as an
entry already collected replaces it if it is newer and is dropped otherwise; any
other entry is appended.  When sameness is having the same key, what has been
collected in the end is the newest entry for each key, in whatever order they
arrived.
-/

namespace SipXRouter

open List

namespace Newest

variable {α κ σ : Type*} {a : α} {entries result : List α}

section Push

variable [LT σ] [DecidableLT σ] (same : α → α → Bool) (stamp : α → σ)

/-- Entry `a` replaces the first collected entry that is the same, if it is newer
than that, and is appended if there is none. -/
def pushOrReplace : List α → α → List α
  | [], a => [a]
  | b :: rest, a =>
    if same b a then (if stamp b < stamp a then a else b) :: rest
    else b :: pushOrReplace rest a

/-- Either nothing collected is the same, or the first such entry meets `a`. -/
theorem pushOrReplace_cases (l : List α) (a : α) :
    ((∀ b ∈ l, same b a = false) ∧ pushOrReplace same stamp l a = l ++ [a]) ∨
    ∃ before b after, l = before ++ b :: after ∧ same b a = true ∧
      pushOrReplace same stamp l a = before ++ (if stamp b < stamp a then a else b) :: after := by
  induction l with
  | nil => exact Or.inl ⟨by simp, rfl⟩
  | cons b rest ih =>
    by_cases hsame : same b a = true
    · exact Or.inr ⟨[], b, rest, rfl, hsame, by simp [pushOrReplace, hsame]⟩
    · have hfalse : same b a = false := by simpa using hsame
      rcases ih with ⟨hnone, heq⟩ | ⟨before, b', after, hl, hb', heq⟩
      · refine Or.inl ⟨?_, by simp [pushOrReplace, hfalse, heq]⟩
        intro b' hb'
        rcases mem_cons.mp hb' with rfl | hb'
        · exact hfalse
        · exact hnone b' hb'
      · exact Or.inr ⟨b :: before, b', after, by rw [hl]; rfl, hb',
          by simp [pushOrReplace, hfalse, heq]⟩

theorem mem_foldl_pushOrReplace {b : α} :
    ∀ {l : List α}, b ∈ entries.foldl (pushOrReplace same stamp) l → b ∈ l ∨ b ∈ entries := by
  induction entries with
  | nil => exact fun hb => Or.inl hb
  | cons a entries ih =>
    intro l hb
    rcases ih hb with hpush | hrest
    · rcases pushOrReplace_cases same stamp l a with ⟨-, heq⟩ | ⟨before, c, after, hl, -, heq⟩
      · rw [heq, mem_append, mem_singleton] at hpush
        exact hpush.imp id fun h => by simp [h]
      · rw [heq] at hpush
        rw [hl]
        split at hpush <;> simp only [mem_append, mem_cons] at hpush ⊢ <;> tauto
    · exact Or.inr (mem_cons_of_mem a hrest)

/-- A collection never shrinks. -/
theorem length_le_length_pushOrReplace (l : List α) (a : α) :
    max 1 l.length ≤ (pushOrReplace same stamp l a).length := by
  rcases pushOrReplace_cases same stamp l a with ⟨-, heq⟩ | ⟨before, b, after, hl, -, heq⟩
  · rw [heq]
    simp
  · rw [heq, hl]
    simp
    omega

theorem foldl_pushOrReplace_ne_nil :
    ∀ {l : List α}, l ≠ [] ∨ entries ≠ [] → entries.foldl (pushOrReplace same stamp) l ≠ [] := by
  induction entries with
  | nil => exact fun h => h.resolve_right fun h => h rfl
  | cons a entries ih =>
    intro l _
    refine ih (Or.inl fun hnil => ?_)
    have hlength := length_le_length_pushOrReplace same stamp l a
    rw [hnil, length_nil] at hlength
    omega

end Push

section Keys

variable [LinearOrder σ] (key : α → κ) (stamp : α → σ)

/-- `result` holds, for each key among the entries, exactly one entry, and none
with that key is newer. -/
structure NewestPerKey (entries result : List α) : Prop where
  mem : ∀ a ∈ result, a ∈ entries
  newest : ∀ a ∈ result, ∀ b ∈ entries, key b = key a → stamp b ≤ stamp a
  once : (result.map key).Nodup
  all : ∀ b ∈ entries, ∃ a ∈ result, key a = key b

variable {key stamp} {same : α → α → Bool}

theorem NewestPerKey.perm {entries' : List α}
    (h : NewestPerKey key stamp entries result) (hperm : entries.Perm entries') :
    NewestPerKey key stamp entries' result where
  mem a ha := hperm.mem_iff.mp (h.mem a ha)
  newest a ha b hb := h.newest a ha b (hperm.mem_iff.mpr hb)
  once := h.once
  all b hb := h.all b (hperm.mem_iff.mpr hb)

theorem NewestPerKey.append
    (h : NewestPerKey key stamp entries result) (hnew : ∀ b ∈ result, key b ≠ key a) :
    NewestPerKey key stamp (entries ++ [a]) (result ++ [a]) where
  mem b hb := by
    rcases mem_append.mp hb with hb | hb
    · exact mem_append_left _ (h.mem b hb)
    · exact mem_append_right _ hb
  newest b hb c hc hkey := by
    rcases mem_append.mp hb with hb | hb <;> rcases mem_append.mp hc with hc | hc
    · exact h.newest b hb c hc hkey
    · rw [mem_singleton.mp hc] at hkey
      exact absurd hkey.symm (hnew b hb)
    · obtain ⟨d, hd, hdc⟩ := h.all c hc
      rw [mem_singleton.mp hb] at hkey
      exact absurd (hdc.trans hkey) (hnew d hd)
    · rw [mem_singleton.mp hb, mem_singleton.mp hc]
  once := by
    rw [map_append, nodup_append]
    refine ⟨h.once, by simp, ?_⟩
    intro k hk k' hk'
    obtain ⟨b, hb, rfl⟩ := mem_map.mp hk
    rw [map_singleton, mem_singleton] at hk'
    rw [hk']
    exact hnew b hb
  all b hb := by
    rcases mem_append.mp hb with hb | hb
    · obtain ⟨c, hc, hkey⟩ := h.all b hb
      exact ⟨c, mem_append_left _ hc, hkey⟩
    · rw [mem_singleton.mp hb]
      exact ⟨a, by simp, rfl⟩

theorem NewestPerKey.replace {before after : List α} {b : α}
    (h : NewestPerKey key stamp entries (before ++ b :: after)) (hkey : key b = key a) :
    NewestPerKey key stamp (entries ++ [a])
      (before ++ (if stamp b < stamp a then a else b) :: after) := by
  have hb : b ∈ before ++ b :: after := by simp
  have hold : ∀ c, c ∈ before ++ after → c ∈ before ++ b :: after := by
    intro c hc
    simp only [mem_append, mem_cons] at hc ⊢
    tauto
  -- every other collected entry has another key
  have hother : ∀ c ∈ before ++ after, key c ≠ key a := by
    intro c hc hca
    have hnodup := h.once
    rw [map_append, map_cons, nodup_middle, nodup_cons, ← map_append]
      at hnodup
    exact hnodup.1 (mem_map.mpr ⟨c, hc, hca.trans hkey.symm⟩)
  -- what stands in the place of `b` has its key and is at least as new
  obtain ⟨w, hw, hwkey, hwb, hwa, hwmem⟩ : ∃ w, w = (if stamp b < stamp a then a else b) ∧
      key w = key a ∧ stamp b ≤ stamp w ∧ stamp a ≤ stamp w ∧ w ∈ entries ++ [a] := by
    refine ⟨_, rfl, ?_⟩
    split
    · next hlt => exact ⟨rfl, le_of_lt hlt, le_refl _, by simp⟩
    · next hlt => exact ⟨hkey, le_refl _, not_lt.mp hlt, mem_append_left _ (h.mem b hb)⟩
  rw [← hw]
  have hmem : ∀ c, c ∈ before ++ w :: after ↔ c = w ∨ c ∈ before ++ after := by
    intro c
    simp only [mem_append, mem_cons]
    tauto
  refine ⟨?_, ?_, ?_, ?_⟩
  · intro c hc
    rcases (hmem c).mp hc with rfl | hc
    · exact hwmem
    · exact mem_append_left _ (h.mem c (hold c hc))
  · intro c hc d hd hdc
    rcases (hmem c).mp hc with rfl | hc
    · rcases mem_append.mp hd with hd | hd
      · exact le_trans (h.newest b hb d hd (hdc.trans (hwkey.trans hkey.symm))) hwb
      · rw [mem_singleton.mp hd]
        exact hwa
    · rcases mem_append.mp hd with hd | hd
      · exact h.newest c (hold c hc) d hd hdc
      · rw [mem_singleton.mp hd] at hdc
        exact absurd hdc.symm (hother c hc)
  · have hnodup := h.once
    rw [map_append, map_cons] at hnodup ⊢
    rwa [hwkey, ← hkey]
  · intro d hd
    have hcover : ∀ k, (∃ c ∈ before ++ b :: after, key c = k) →
        ∃ c ∈ before ++ w :: after, key c = k := by
      rintro k ⟨c, hc, rfl⟩
      rw [mem_append, mem_cons] at hc
      by_cases hcb : c = b
      · exact ⟨w, (hmem w).mpr (Or.inl rfl), by rw [hwkey, hcb, hkey]⟩
      · refine ⟨c, (hmem c).mpr (Or.inr ?_), rfl⟩
        rw [mem_append]
        tauto
    refine hcover _ ?_
    rcases mem_append.mp hd with hd | hd
    · exact h.all d hd
    · rw [mem_singleton.mp hd]
      exact ⟨b, hb, hkey⟩

theorem NewestPerKey.pushOrReplace (h : NewestPerKey key stamp entries result)
    (hsame : ∀ b ∈ entries, same b a = true ↔ key b = key a) :
    NewestPerKey key stamp (entries ++ [a]) (Newest.pushOrReplace same stamp result a) := by
  rcases pushOrReplace_cases same stamp result a with
    ⟨hnone, heq⟩ | ⟨before, b, after, hl, hb, heq⟩
  · rw [heq]
    refine h.append fun b hb hkey => ?_
    have htrue := (hsame b (h.mem b hb)).mpr hkey
    rw [hnone b hb] at htrue
    exact Bool.false_ne_true htrue
  · rw [heq]
    subst hl
    exact h.replace ((hsame b (h.mem b (by simp))).mp hb)

/-- **Arrival in any order.**  When sameness means having the same key, the newest
entry for each key is collected. -/
theorem newestPerKey_foldl (entries : List α)
    (hsame : ∀ a ∈ entries, ∀ b ∈ entries, same b a = true ↔ key b = key a) :
    NewestPerKey key stamp entries (entries.foldl (Newest.pushOrReplace same stamp) []) := by
  induction entries using reverseRecOn with
  | nil => exact ⟨by simp, by simp, by simp, by simp⟩
  | append_singleton entries a ih =>
    rw [foldl_append, foldl_cons, foldl_nil]
    have hentries := ih fun a ha b hb =>
      hsame a (mem_append_left _ ha) b (mem_append_left _ hb)
    exact hentries.pushOrReplace fun b hb => hsame a (by simp) b (mem_append_left _ hb)

end Keys

end Newest

end SipXRouter
