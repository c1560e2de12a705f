import SipXRouter.Net.NetMd5Codec
import SipXRouter.Net.Url

/-!
# Signed URLs

`SignedUrl` signs the URLs that a component puts into Route, Path and Record-Route
headers, so that another component can tell that they were added by a trusted one.
The signature is the digest of the secret, the user and the host with its port,
one after the other.  Nothing stands between user and host, so the signature of a
URL is that of every other URL whose user and host join up to the same text.
-/

namespace SipXRouter.SignedUrl

open List

def signatureUrlParamName : Text := text "sipX-sig"

/-- What the digest is taken of. -/
def signedBytes (secret userInfo hostPort : Text) : Text := secret ++ userInfo ++ hostPort

/-- The digest of the secret with the user and the host. -/
def computeSignature (md5 : NetMd5Codec) (secret userInfo hostPort : Text) : Text :=
  md5.hash (signedBytes secret userInfo hostPort)

/-- The signature that a URL should carry. -/
def signatureOf (md5 : NetMd5Codec) (secret : Text) (url : Url) : Text :=
  computeSignature md5 secret url.userId url.getHostWithPort

/-- The URL with its signature as a parameter. -/
def sign (md5 : NetMd5Codec) (secret : Text) (urlToSign : Url) : Url :=
  urlToSign.setUrlParameter signatureUrlParamName (signatureOf md5 secret urlToSign)

/-- `isUrlSigned`.  The signatures are compared as C strings. -/
def isUrlSigned (md5 : NetMd5Codec) (secret : Text) (signedUrl : Url) : Bool :=
  match signedUrl.getUrlParameter signatureUrlParamName with
  | none => false
  | some existing => cString (signatureOf md5 secret signedUrl) == cString existing

section Signature

variable (md5 : NetMd5Codec) (secret : Text)

theorem cString_hash (x : Text) : cString (md5.hash x) = md5.hash x :=
  cString_of_class (md5.isHexLower_hash x) (by decide)

theorem signatureOf_sign (url : Url) :
    signatureOf md5 secret (sign md5 secret url) = signatureOf md5 secret url := rfl

/-- **What was signed is accepted.** -/
theorem isUrlSigned_sign (url : Url) : isUrlSigned md5 secret (sign md5 secret url) = true := by
  have hparam : (sign md5 secret url).getUrlParameter signatureUrlParamName =
      some (signatureOf md5 secret url) := by
    rw [sign, Url.getUrlParameter_setUrlParameter, if_pos (caseEq_refl _)]
  simp only [isUrlSigned, hparam, signatureOf_sign, beq_self_eq_true]

theorem isUrlSigned_iff {url url' : Url}
    (hsignature : url'.getUrlParameter signatureUrlParamName = some (signatureOf md5 secret url)) :
    isUrlSigned md5 secret url' = true ↔ signatureOf md5 secret url' = signatureOf md5 secret url := by
  simp only [isUrlSigned, hsignature, beq_iff_eq, signatureOf, computeSignature, cString_hash]

variable {md5 secret}

theorem signatureOf_eq_iff {url url' : Url}
    (hideal : md5.Ideal [signedBytes secret url.userId url.getHostWithPort]) :
    signatureOf md5 secret url' = signatureOf md5 secret url ↔
      url.userId ++ url.getHostWithPort = url'.userId ++ url'.getHostWithPort := by
  have hbytes (x : Url) : signedBytes secret x.userId x.getHostWithPort =
      secret ++ (x.userId ++ x.getHostWithPort) := append_assoc _ _ _
  constructor
  · intro h
    have h := hideal _ (mem_singleton.mpr rfl) _ h
    rw [hbytes, hbytes] at h
    exact (append_cancel_left h).symm
  · intro h
    rw [signatureOf, signatureOf, computeSignature, computeSignature, hbytes, hbytes, h]

end Signature

/-- The signature of `url` is accepted in `url'` only for the same user and host, and
`url` itself is accepted when it is signed. -/
def Bound (md5 : NetMd5Codec) (secret : Text) (url url' : Url) : Prop :=
  (isUrlSigned md5 secret url' = true →
    url.userId = url'.userId ∧ url.getHostWithPort = url'.getHostWithPort) ∧
  isUrlSigned md5 secret (sign md5 secret url) = true

/-- The joined texts are the same and the host starts at another place. -/
def BoundaryMoved (url url' : Url) : Prop :=
  url.userId ++ url.getHostWithPort = url'.userId ++ url'.getHostWithPort ∧
    url.userId.length ≠ url'.userId.length

/-- **When a signature says whose it is**: `url'` carries the signature of `url`, and
does not join the same text at another place. -/
theorem bound_iff {md5 : NetMd5Codec} {secret : Text} {url url' : Url}
    (hideal : md5.Ideal [signedBytes secret url.userId url.getHostWithPort])
    (hsignature : url'.getUrlParameter signatureUrlParamName = some (signatureOf md5 secret url)) :
    Bound md5 secret url url' ↔ ¬ BoundaryMoved url url' := by
  have haccept : isUrlSigned md5 secret url' = true ↔
      url.userId ++ url.getHostWithPort = url'.userId ++ url'.getHostWithPort := by
    rw [isUrlSigned_iff md5 secret hsignature, signatureOf_eq_iff hideal]
  constructor
  · rintro ⟨hbound, -⟩ ⟨hjoin, hlength⟩
    exact hlength (congrArg length (hbound (haccept.mpr hjoin)).1)
  · intro hmoved
    refine ⟨fun hsigned => ?_, isUrlSigned_sign md5 secret url⟩
    have hjoin := haccept.mp hsigned
    have hlength : url.userId.length = url'.userId.length :=
      Decidable.not_not.mp fun hne => hmoved ⟨hjoin, hne⟩
    exact append_inj hjoin hlength

/-- A URL of the user `1`. -/
def signedRoute : Url := { userId := text "1", hostAddress := text "23.example.com" }

/-- A digest that knows what was signed for `signedRoute`. -/
def routeMd5 : NetMd5Codec :=
  NetMd5Codec.ofTable
    [(signedBytes (text "secret") signedRoute.userId signedRoute.getHostWithPort,
      text "0cc175b9c0f1b6a831c399e269772661")] (by decide)

/-- A URL with the signature of `signedRoute`. -/
def withSignature (url : Url) : Url :=
  url.setUrlParameter signatureUrlParamName (text "0cc175b9c0f1b6a831c399e269772661")

theorem bound_otherHost :
    Bound routeMd5 (text "secret") signedRoute
      (withSignature { userId := text "1", hostAddress := text "example.com" }) :=
  (bound_iff (NetMd5Codec.ideal_ofTable _ _ (by decide) (by simp) (by simp))
    (by decide)).mpr (by rintro ⟨h, -⟩; exact absurd h (by decide))

/-- The first digit of the host moves to the user, and the signature is accepted. -/
theorem signedRoute_not_bound :
    routeMd5.Ideal [signedBytes (text "secret") signedRoute.userId signedRoute.getHostWithPort] ∧
    (withSignature { userId := text "12", hostAddress := text "3.example.com" }).getUrlParameter
        signatureUrlParamName = some (signatureOf routeMd5 (text "secret") signedRoute) ∧
    ¬ Bound routeMd5 (text "secret") signedRoute
      (withSignature { userId := text "12", hostAddress := text "3.example.com" }) := by
  refine ⟨NetMd5Codec.ideal_ofTable _ _ (by decide) (by simp) (by simp),
    by decide, ?_⟩
  rintro ⟨hbound, -⟩
  exact absurd (hbound (by decide)).1 (by decide)

end SipXRouter.SignedUrl
