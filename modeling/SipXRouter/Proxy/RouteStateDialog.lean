import SipXRouter.Proxy.RouteStateToken
import SipXRouter.Proxy.RouteStateUpdate

/-!
# Route state over a dialog

The state is written into a token for the later requests of a dialog.  `Kept` is the invariant
that makes the token faithful: the sorted list of values has no name twice, and names and
values are texts that the token can carry.
-/

namespace SipXRouter

open List

variable {st : RouteState} {values : List (Text × Text)}

namespace RouteState

open SipMessage NameValueTokenizer

/-! ## States that their token carries -/

/-- The values can be carried by a token: no name stands twice in the sorted list, and names
and values are texts that a token has. -/
structure Kept (st : RouteState) : Prop where
  sorted : st.values.Pairwise (·.1 < ·.1)
  names : ∀ nv ∈ st.values, ValidName nv.1
  values : ∀ nv ∈ st.values, cString nv.2 = nv.2

theorem cString_cString (s : Text) : cString (cString s) = cString s :=
  cString_eq_self fun _ hc => mem_takeWhile_imp (p := (· != 0)) hc

theorem insertValue_eq_append {nv : Text × Text}
    (hbefore : ∀ x ∈ values, x.1 < nv.1) : insertValue nv values = values ++ [nv] := by
  induction values with
  | nil => rfl
  | cons x xs ih =>
    rw [insertValue, if_pos (hbefore x (by simp)), ih fun y hy => hbefore y (by simp [hy]),
      cons_append]

theorem insertPairs_encodeValue (hvalues : ∀ nv ∈ values,
    cString nv.2 = nv.2) : ∀ {before : List (Text × Text)}, (before ++ values).Pairwise (·.1 < ·.1) →
      insertPairs (values.map fun nv => (nv.1, encodeValue nv.2)) before = before ++ values := by
  induction values with
  | nil => intro before _; simp [insertPairs]
  | cons nv values ih =>
    intro before hsorted
    have hbefore : ∀ x ∈ before, x.1 < nv.1 := fun x hx =>
      (pairwise_append.mp hsorted).2.2 x hx nv (by simp)
    have hstep : insertPairs ((nv :: values).map fun nv => (nv.1, encodeValue nv.2)) before =
        insertPairs (values.map fun nv => (nv.1, encodeValue nv.2)) (before ++ [nv]) := by
      rw [map_cons, insertPairs, foldl_cons, ← insertPairs]
      congr 1
      rw [decodeValue_encodeValue, Option.getD_some, hvalues nv (by simp)]
      exact insertValue_eq_append hbefore
    rw [hstep, ih (fun x hx => hvalues x (by simp [hx])) (by simpa using hsorted)]
    simp

/-- **The token of a kept state** is accepted and gives the values back. -/
theorem decodeToken_encode (md5 : NetMd5Codec) (secret : Text) (hst : st.Kept)
    (hne : st.values ≠ []) :
    decodeToken md5 secret st.callId (st.encode md5 secret) = some st.values := by
  have hpairs : ∀ p ∈ st.values.map fun nv => (nv.1, encodeValue nv.2), ValidPair p := by
    intro p hp
    obtain ⟨nv, hnv, rfl⟩ := mem_map.mp hp
    exact validPair_encodeValue (hst.names nv hnv) nv.2
  rw [encode, signedBytes, nvpairs, encodePairs_true,
    decodeToken_complete md5 secret st.callId (by simpa using hne) hpairs,
    insertPairs_encodeValue hst.values (by simpa using hst.sorted), nil_append]

theorem pairwise_insertValue {nv : Text × Text}
    (hsorted : values.Pairwise (·.1 < ·.1)) (hnew : findValue nv.1 values = none) :
    (insertValue nv values).Pairwise (·.1 < ·.1) := by
  induction values with
  | nil => simp [insertValue]
  | cons x xs ih =>
    obtain ⟨hx, hxs⟩ := pairwise_cons.mp hsorted
    rw [findValue] at hnew
    rw [insertValue]
    by_cases hbefore : x.1 < nv.1
    · rw [if_pos hbefore] at hnew ⊢
      refine pairwise_cons.mpr ⟨fun y hy => ?_, ih hxs hnew⟩
      rcases mem_insertValue hy with rfl | hy
      · exact hbefore
      · exact hx y hy
    · rw [if_neg hbefore] at hnew ⊢
      have hne : x.1 ≠ nv.1 := by
        intro heq
        rw [if_pos heq] at hnew
        simp at hnew
      have hlower : nv.1 < x.1 := ((Std.lt_trichotomy x.1 nv.1).resolve_left hbefore).resolve_left hne
      refine pairwise_cons.mpr ⟨fun y hy => ?_, hsorted⟩
      rcases mem_cons.mp hy with rfl | hy
      · exact hlower
      · exact List.lt_trans hlower (hx y hy)

theorem map_fst_replaceValue (nv : Text × Text) (values : List (Text × Text)) :
    (replaceValue nv values).map Prod.fst = values.map Prod.fst := by
  induction values with
  | nil => rfl
  | cons x xs ih =>
    rw [replaceValue]
    split
    · rw [map_cons, map_cons, ih]
    · split
      · next heq => rw [map_cons, map_cons, heq]
      · rfl

theorem destroyValue_sublist (name : Text) (values : List (Text × Text)) :
    (destroyValue name values).Sublist values := by
  induction values with
  | nil => exact Sublist.refl _
  | cons x xs ih =>
    rw [destroyValue]
    split
    · exact ih.cons_cons x
    · split
      · exact sublist_cons_self x xs
      · exact Sublist.refl _

/-- The list is sorted, no name stands in it twice, and the values are C strings. -/
structure Ordered (values : List (Text × Text)) : Prop where
  sorted : values.Pairwise (·.1 < ·.1)
  strings : ∀ nv ∈ values, cString nv.2 = nv.2

theorem Ordered.setParameter (hst : Ordered st.values) (pluginInstance parameterName value : Text) :
    Ordered (st.setParameter pluginInstance parameterName value).values := by
  refine ⟨?_, fun nv hnv => ?_⟩
  · unfold RouteState.setParameter
    split
    · cases SipXRouter.routeParameterName pluginInstance parameterName with
      | none => exact hst.sorted
      | some name =>
        dsimp only
        split
        · have hsorted := pairwise_map.mpr hst.sorted
          rw [← map_fst_replaceValue] at hsorted
          exact pairwise_map.mp hsorted
        · next hnew => exact pairwise_insertValue hst.sorted (by simpa using hnew)
    · exact hst.sorted
  · rcases mem_setParameter hnv with hnv | ⟨name, -, rfl⟩
    · exact hst.strings nv hnv
    · exact cString_cString value

theorem unsetParameter_sublist (st : RouteState) (pluginInstance parameterName : Text) :
    (st.unsetParameter pluginInstance parameterName).values.Sublist st.values := by
  unfold RouteState.unsetParameter
  split
  · cases SipXRouter.routeParameterName pluginInstance parameterName with
    | none => exact Sublist.refl _
    | some name => exact destroyValue_sublist name st.values
  · exact Sublist.refl _

theorem Ordered.unsetParameter (hst : Ordered st.values) (pluginInstance parameterName : Text) :
    Ordered (st.unsetParameter pluginInstance parameterName).values := by
  have hsublist := unsetParameter_sublist st pluginInstance parameterName
  exact ⟨hst.sorted.sublist hsublist, fun nv hnv => hst.strings nv (hsublist.subset hnv)⟩

theorem findValue_eq_none {name : Text}
    (hvalues : ∀ x ∈ values, name < x.1) : findValue name values = none := by
  cases values with
  | nil => rfl
  | cons x xs =>
    have hx := hvalues x (by simp)
    have hne : x.1 ≠ name := fun h => List.lt_irrefl name (by rw [h] at hx; exact hx)
    rw [findValue, if_neg (List.lt_asymm hx), if_neg hne]

theorem findValue_destroyValue {name other : Text} (hne : other ≠ name)
    (hsorted : values.Pairwise (·.1 < ·.1)) :
    findValue other (destroyValue name values) = findValue other values := by
  induction values with
  | nil => rfl
  | cons x xs ih =>
    obtain ⟨hx, hxs⟩ := pairwise_cons.mp hsorted
    rw [destroyValue]
    by_cases hbefore : x.1 < name
    · rw [if_pos hbefore, findValue, findValue, ih hxs]
    · rw [if_neg hbefore]
      by_cases heq : x.1 = name
      · rw [if_pos heq, findValue]
        by_cases hlower : x.1 < other
        · rw [if_pos hlower]
        · have hother : x.1 ≠ other := fun h => hne (h.symm.trans heq)
          have hrest := ((Std.lt_trichotomy x.1 other).resolve_left hlower).resolve_left hother
          rw [if_neg hlower, if_neg hother,
            findValue_eq_none fun y hy => List.lt_trans hrest (hx y hy)]
      · rw [if_neg heq]

end RouteState

end SipXRouter
