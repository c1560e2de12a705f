import SipXRouter.Proxy.RouteStateDialog
import SipXRouter.Proxy.RouteStateTrust

/-!
# Encoding route state and decoding it again

A state that starts without values and is changed by calls of plugins holds a sorted list in
which no name stands twice.  Its token gives the list back, but for three kinds of state:

* `encode` writes a token without pairs for a state without values, and `decode` wants one pair
  at least;
* the name of a parameter whose two parts are empty is a star, and `decode` wants two bytes;
* the pattern of the parts ends at `$`, which lets a newline at the end of a part pass.
-/

namespace SipXRouter

open List Pattern

variable {st : RouteState}

namespace RouteState

/-! ## What calls make -/

/-- A state whose list is sorted, with names that were built from two parts. -/
structure Held (st : RouteState) : Prop where
  ordered : Ordered st.values
  named : st.Named

theorem held_of_values_eq_nil (hst : st.values = []) : st.Held := by
  refine ⟨⟨?_, ?_⟩, ?_⟩
  · rw [hst]
    exact List.Pairwise.nil
  · rw [hst]
    exact fun nv hnv => absurd hnv not_mem_nil
  · unfold Named
    rw [hst]
    exact fun nv hnv => absurd hnv not_mem_nil

theorem Held.call (hst : st.Held) (c : PluginCall) : (st.call c).Held := by
  cases c with
  | setParameter pluginInstance parameterName value =>
    exact ⟨hst.ordered.setParameter pluginInstance parameterName value,
      named_setParameter hst.named pluginInstance parameterName value⟩
  | unsetParameter pluginInstance parameterName =>
    exact ⟨hst.ordered.unsetParameter pluginInstance parameterName,
      named_unsetParameter hst.named pluginInstance parameterName⟩
  | addCopy => exact ⟨hst.ordered, hst.named⟩

theorem Held.calls (hst : st.Held) (cs : List PluginCall) : (st.calls cs).Held := by
  induction cs generalizing st with
  | nil => exact hst
  | cons c cs ih => exact ih (hst.call c)

/-! ## The names -/

theorem count_star_of_search {s : Text} (hs : (search parameterNamePattern s).isSome = true) :
    s.count (byte '*') = 0 := by
  obtain ⟨name, tail, rfl, hname, htail⟩ := search_parameterNamePattern.mp hs
  rw [count_append, Nat.add_eq_zero_iff, count_eq_zero, count_eq_zero]
  refine ⟨fun hmem => absurd (hname _ hmem) (by decide), ?_⟩
  obtain rfl | rfl := htail
  · exact not_mem_nil
  · decide

/-- Of the names that plugins can build, `decode` takes all but a lone star and those with a
newline. -/
theorem validName_iff {name : Text} (hname : IsRouteParameterName name) :
    ValidName name ↔ name ≠ text "*" ∧ (10 : Byte) ∉ name := by
  constructor
  · rintro ⟨hlen, hbytes, -⟩
    refine ⟨?_, fun hmem => absurd (hbytes _ hmem) (by decide)⟩
    rintro rfl
    exact absurd hlen (by decide)
  · rintro ⟨hne, hnewline⟩
    have hbytes : ∀ c ∈ name, isNameByte c = true := fun c hc =>
      (bytes_of_isRouteParameterName hname c hc).resolve_right fun h => hnewline (h ▸ hc)
    obtain ⟨pluginInstance, parameterName, hbuilt⟩ := hname
    rw [routeParameterName] at hbuilt
    split at hbuilt
    · next hvalid =>
        cases hbuilt
        refine ⟨?_, hbytes, ?_⟩
        · by_contra hshort
          rw [length_append, length_cons] at hshort
          have hfirst : pluginInstance = [] := eq_nil_of_length_eq_zero (by omega)
          have hlast : parameterName = [] := eq_nil_of_length_eq_zero (by omega)
          exact hne (by rw [hfirst, hlast]; rfl)
        · rw [count_append, count_cons_self, count_star_of_search hvalid.1,
            count_star_of_search hvalid.2]
    · simp at hbuilt

/-- `decode` delivers names that it takes. -/
theorem validName_of_decodeToken {md5 : NetMd5Codec} {secret callId stateToken : Text}
    {values : List (Text × Text)} (h : decodeToken md5 secret callId stateToken = some values) :
    ∀ nv ∈ values, ValidName nv.1 := by
  obtain ⟨-, m', -, hfirst, -, hpairs⟩ := decodeToken_eq_some h
  refine forall_decodePairs (fun name hname hstar => ?_) _ (mem_run_of_matchAt hfirst) (by simp)
    hpairs
  exact ⟨(mem_lang_namePattern.mp hname).1, bytes_of_mem_namePattern hname, hstar⟩

/-! ## The round trip -/

/-- The token of the state is accepted by every state for the same Call-Id, and gives the
values back. -/
def RoundTrip (md5 : NetMd5Codec) (secret : Text) (st : RouteState) : Prop :=
  ∀ st' : RouteState, st'.callId = st.callId →
    st'.decode md5 secret (st.encode md5 secret) = ({ st' with values := st.values }, true)

/-- There are values; no name is a lone star, and none has a newline. -/
def Encodable (st : RouteState) : Prop :=
  st.values ≠ [] ∧ ∀ nv ∈ st.values, nv.1 ≠ text "*" ∧ (10 : Byte) ∉ nv.1

theorem Held.kept (hst : st.Held) (hencodable : st.Encodable) : st.Kept :=
  ⟨hst.ordered.sorted, fun nv hnv => (validName_iff (hst.named nv hnv)).mpr (hencodable.2 nv hnv),
    hst.ordered.strings⟩

/-- **The token gives the values back** exactly if there are any, and all names are such that
`decode` takes them. -/
theorem Held.roundTrip_encodable {md5 : NetMd5Codec} {secret : Text}
    (hst : st.Held) : RoundTrip md5 secret st ↔ st.Encodable := by
  constructor
  · intro hround
    have hdecode := hround st rfl
    cases htoken : decodeToken md5 secret st.callId (st.encode md5 secret) with
    | none =>
      rw [decode, htoken] at hdecode
      exact absurd (congrArg Prod.snd hdecode) Bool.false_ne_true
    | some values =>
      rw [decode, htoken] at hdecode
      have hvalues : values = st.values := congrArg (fun r => r.1.values) hdecode
      subst hvalues
      exact ⟨decodeToken_ne_nil htoken, fun nv hnv =>
        (validName_iff (hst.named nv hnv)).mp (validName_of_decodeToken htoken nv hnv)⟩
  · intro hencodable st' hcallId
    rw [decode, hcallId, decodeToken_encode md5 secret (hst.kept hencodable) hencodable.1]

end RouteState

end SipXRouter
