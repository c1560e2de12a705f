import SipXRouter.Net.ViaField

/-!
# Loops of forked requests

The identifier of a forked request carries a key: the digest of the targets of the fork, in
order and one behind the other.  `BranchId::loopDetected` looks for the key in the Via values of
a request, to find out whether it was forked to the same targets before.

## Design notes

* The signature of a branch does not cover its key.  A value that others put together of the two
  is not told from one that was generated here.
* Targets hold no null byte, as the texts that they are read from hold none.
-/

namespace SipXRouter

open List

namespace NetMd5Codec

/-! ## The digest in 22 characters -/

theorem hexValue_of_isHexLower {c : Byte} (hc : isHexLower c = true) :
    (48 ≤ c.toNat ∧ c.toNat ≤ 57 ∧ hexValue c + 48 = c.toNat) ∨
      (97 ≤ c.toNat ∧ c.toNat ≤ 102 ∧ hexValue c + 87 = c.toNat) := by
  have hrange {lo hi : Char} : inRange lo hi c = true ↔
      (byte lo).toNat ≤ c.toNat ∧ c.toNat ≤ (byte hi).toNat := by
    rw [inRange, Bool.and_eq_true, decide_eq_true_iff, decide_eq_true_iff, UInt8.le_iff_toNat_le,
      UInt8.le_iff_toNat_le]
  rw [hexValue]
  by_cases hdigit : isDigit c = true
  · obtain ⟨hlo, hhi⟩ : 48 ≤ c.toNat ∧ c.toNat ≤ 57 := hrange.mp hdigit
    rw [if_pos hdigit]
    omega
  · have hletter : inRange 'a' 'f' c = true := by
      rw [isHexLower, Bool.or_eq_true] at hc
      exact hc.resolve_left hdigit
    obtain ⟨hlo, hhi⟩ : 97 ≤ c.toNat ∧ c.toNat ≤ 102 := hrange.mp hletter
    rw [if_neg hdigit, if_pos hletter]
    omega

/-- Two texts of hexadecimal digits with the same bytes are the same. -/
theorem hexBytes_inj : ∀ {s t : Text}, s.length = t.length → s.length % 2 = 0 →
    (∀ c ∈ s, isHexLower c = true) → (∀ c ∈ t, isHexLower c = true) →
      hexBytes s = hexBytes t → s = t
  | [], [], _, _, _, _, _ => rfl
  | [_], _, _, heven, _, _, _ => absurd heven (by simp)
  | a :: b :: s, a' :: b' :: t, hlen, heven, hs, ht, h => by
      simp only [length_cons, Nat.add_right_cancel_iff] at hlen
      simp only [length_cons] at heven
      obtain ⟨ha, hs⟩ := forall_mem_cons.mp hs
      obtain ⟨hb, hs⟩ := forall_mem_cons.mp hs
      obtain ⟨ha', ht⟩ := forall_mem_cons.mp ht
      obtain ⟨hb', ht⟩ := forall_mem_cons.mp ht
      rw [hexBytes, hexBytes, List.cons.injEq] at h
      have hrest := hexBytes_inj hlen (by omega) hs ht h.2
      have hvalue := congrArg UInt8.toNat h.1
      have hfa := hexValue_of_isHexLower ha
      have hfb := hexValue_of_isHexLower hb
      have hfa' := hexValue_of_isHexLower ha'
      have hfb' := hexValue_of_isHexLower hb'
      rw [UInt8.toNat_ofNat_of_lt' (by rw [UInt8.size]; omega),
        UInt8.toNat_ofNat_of_lt' (by rw [UInt8.size]; omega)] at hvalue
      have haa : a = a' := UInt8.toNat_inj.mp (by omega)
      have hbb : b = b' := UInt8.toNat_inj.mp (by omega)
      rw [haa, hbb, hrest]

/-- **The 22 characters** tell the digests apart. -/
theorem hash_eq_of_base64Sig_eq {md5 : NetMd5Codec} {x y : Text}
    (h : md5.base64Sig x = md5.base64Sig y) : md5.hash x = md5.hash y := by
  -- an encoding of 16 bytes is 22 characters and two pads
  have hshape (z : Text) : NetBase64Codec.encode .sipTokenSafe (hexBytes (md5.hash z)) =
      md5.base64Sig z ++ replicate 2 Base64Alphabet.sipTokenSafe.pad := by
    have hlen : (hexBytes (md5.hash z)).length = 16 := by rw [length_hexBytes, md5.length_hash]
    obtain ⟨body, k, henc, -, hfits, hsize, -⟩ :=
      @NetBase64Codec.encode_shape .sipTokenSafe (hexBytes (md5.hash z))
    have hbody : body.length = 22 := by omega
    have hk : k = 2 := by
      rw [hbody] at hfits
      rcases k with _ | _ | _ | k
      · exact absurd hfits (by decide)
      · exact absurd hfits (by decide)
      · rfl
      · exact absurd hfits Bool.false_ne_true
    rw [base64Sig, henc, hk, ← hbody, take_left]
  have hne (z : Text) : hexBytes (md5.hash z) ≠ [] := by
    apply ne_nil_of_length_pos
    rw [length_hexBytes, md5.length_hash]
    decide
  have hbytes : hexBytes (md5.hash x) = hexBytes (md5.hash y) := by
    have hdecode := NetBase64Codec.decode_encode (a := .sipTokenSafe) (hne x)
    rw [hshape x, h, ← hshape y, NetBase64Codec.decode_encode (hne y)] at hdecode
    exact (Option.some.inj hdecode).symm
  refine hexBytes_inj ?_ ?_ (md5.isHexLower_hash x) (md5.isHexLower_hash y) hbytes
  · rw [md5.length_hash, md5.length_hash]
  · rw [md5.length_hash]

theorem Ideal.eq_of_base64Sig {md5 : NetMd5Codec} {signed : List Text} (h : md5.Ideal signed)
    {s x : Text} (hs : s ∈ signed) (hx : md5.base64Sig x = md5.base64Sig s) : x = s :=
  h s hs x (hash_eq_of_base64Sig_eq hx)

end NetMd5Codec

namespace BranchId

open Pattern NameValueTokenizer HttpMessage SipMessage

/-! ## The targets of a fork -/

/-- `SIP_SIPX_AUTHIDENTITY`, the one parameter of `StripHeaderParams`. -/
def sipxAuthIdentity : Text := text "X-sipX-Authidentity"

/-- The text that `addFork` records of a contact. -/
def forkUri (contact : Url) : Text := (contact.removeHeaderParameter sipxAuthIdentity).getUri

/-- `addFork` on the list of the forks. -/
def recordFork (forks : List Text) (contactUri : Text) : List Text :=
  if forks.contains contactUri then forks else insertFork contactUri forks

/-- The forks that are kept of some contacts, in order. -/
def orderedForks (contacts : List Url) : List Text := (contacts.map forkUri).foldl recordFork []

/-- What is hashed of them. -/
def forkText (contacts : List Url) : Text := (orderedForks contacts).flatten

/-- The key of a request that is forked to some contacts. -/
def loopKey (md5 : NetMd5Codec) (contacts : List Url) : Text :=
  if contacts = [] then [] else md5.base64Sig (forkText contacts)

/-- The contacts name the same set of targets. -/
def SameForks (contacts contacts' : List Url) : Prop :=
  ∀ contactUri, contactUri ∈ contacts.map forkUri ↔ contactUri ∈ contacts'.map forkUri

theorem insertFork_perm (contactUri : Text) :
    ∀ forks : List Text, (insertFork contactUri forks).Perm (contactUri :: forks)
  | [] => Perm.refl _
  | c :: cs => by
      rw [insertFork]
      split
      · exact ((insertFork_perm contactUri cs).cons c).trans (Perm.swap contactUri c cs)
      · exact Perm.refl _

theorem mem_recordFork {forks : List Text} {contactUri t : Text} :
    t ∈ recordFork forks contactUri ↔ t = contactUri ∨ t ∈ forks := by
  rw [recordFork]
  split
  · next hmem =>
      rw [contains_iff_mem] at hmem
      exact ⟨.inr, fun h => h.elim (fun heq => heq ▸ hmem) id⟩
  · rw [(insertFork_perm contactUri forks).mem_iff, mem_cons]

theorem pairwise_recordFork {forks : List Text} (h : forks.Pairwise (· < ·)) (contactUri : Text) :
    (recordFork forks contactUri).Pairwise (· < ·) := by
  rw [recordFork]
  split
  · exact h
  · next hmem =>
      rw [contains_iff_mem] at hmem
      induction forks with
      | nil => exact pairwise_singleton _ _
      | cons c cs ih =>
        obtain ⟨hc, hcs⟩ := pairwise_cons.mp h
        rw [mem_cons, not_or] at hmem
        rw [insertFork]
        split
        · next hlt =>
            refine pairwise_cons.mpr ⟨fun d hd => ?_, ih hcs hmem.2⟩
            rw [(insertFork_perm contactUri cs).mem_iff, mem_cons] at hd
            exact hd.elim (fun heq => heq ▸ hlt) (hc d)
        · next hnot =>
            have hlt : contactUri < c :=
              ((Std.lt_trichotomy contactUri c).resolve_right fun h => h.elim hmem.1 hnot)
            refine pairwise_cons.mpr ⟨fun d hd => ?_, h⟩
            rcases mem_cons.mp hd with rfl | hd
            · exact hlt
            · exact List.lt_trans hlt (hc d hd)

theorem orderedForks_concat (contacts : List Url) (contact : Url) :
    orderedForks (contacts ++ [contact]) =
      recordFork (orderedForks contacts) (forkUri contact) := by
  rw [orderedForks, map_append, foldl_append]
  rfl

theorem mem_orderedForks {contacts : List Url} {t : Text} :
    t ∈ orderedForks contacts ↔ t ∈ contacts.map forkUri := by
  induction contacts using reverseRecOn with
  | nil => exact Iff.rfl
  | append_singleton contacts contact ih =>
    rw [orderedForks_concat, mem_recordFork, ih, map_append, mem_append, or_comm]
    exact or_congr_right mem_singleton.symm

theorem pairwise_orderedForks (contacts : List Url) : (orderedForks contacts).Pairwise (· < ·) := by
  induction contacts using reverseRecOn with
  | nil => exact List.Pairwise.nil
  | append_singleton contacts contact ih =>
    rw [orderedForks_concat]
    exact pairwise_recordFork ih _

/-- **The set of the targets** decides which forks are kept, whatever the order and the
duplicates of the contacts. -/
theorem orderedForks_congr {contacts contacts' : List Url} (h : SameForks contacts contacts') :
    orderedForks contacts = orderedForks contacts' := by
  have hmem (t : Text) : t ∈ orderedForks contacts ↔ t ∈ orderedForks contacts' := by
    rw [mem_orderedForks, mem_orderedForks, h t]
  have hnodup (contacts : List Url) : (orderedForks contacts).Nodup := by
    refine (pairwise_orderedForks contacts).imp ?_
    rintro a _ hlt rfl
    exact List.lt_irrefl a hlt
  have hperm := (perm_ext_iff_of_nodup (hnodup _) (hnodup _)).mpr hmem
  refine hperm.eq_of_pairwise (fun a b _ _ hab hba => ?_) (pairwise_orderedForks _)
    (pairwise_orderedForks _)
  exact absurd (List.lt_trans hab hba) (List.lt_irrefl a)

theorem orderedForks_eq_nil {contacts : List Url} : orderedForks contacts = [] ↔ contacts = [] := by
  rw [eq_nil_iff_forall_not_mem]
  simp only [mem_orderedForks]
  rw [← eq_nil_iff_forall_not_mem, map_eq_nil_iff]

theorem loopKey_congr (md5 : NetMd5Codec) {contacts contacts' : List Url}
    (h : SameForks contacts contacts') : loopKey md5 contacts = loopKey md5 contacts' := by
  have hforks := orderedForks_congr h
  have hnil : contacts = [] ↔ contacts' = [] := by
    rw [← orderedForks_eq_nil, hforks, orderedForks_eq_nil]
  rw [loopKey, loopKey, forkText, forkText, hforks]
  by_cases hcontacts : contacts = []
  · rw [if_pos hcontacts, if_pos (hnil.mp hcontacts)]
  · rw [if_neg hcontacts, if_neg (hnil.not.mp hcontacts)]

/-! ## The search -/

/-- One turn of the loop of `loopDetected`: the key is compared first, then the signature. -/
def isLoopVia (md5 : NetMd5Codec) (secret : Text) (message : SipMessage)
    (loopDetectionKey via : Text) : Bool :=
  match getViaTag via (text "branch") with
  | none => false
  | some branch =>
    match parse branch with
    | none => false
    | some (counter, uniqueKey, loopDetectKey) =>
      loopDetectionKey == loopDetectKey &&
        (generateUniquePart md5 secret (getCallIdField message) counter).drop
          (magicCookie.length + 4) == uniqueKey

/-- The loop of `loopDetected`, for a number of turns. -/
def loopDetectedFrom (md5 : NetMd5Codec) (secret : Text) (message : SipMessage)
    (loopDetectionKey : Text) : (turns viaNumber : Nat) → Nat
  | 0, _ => 0
  | turns + 1, viaNumber =>
    match getViaFieldSubField message viaNumber with
    | none => 0
    | some via =>
      if isLoopVia md5 secret message loopDetectionKey via then viaNumber + 1
      else loopDetectedFrom md5 secret message loopDetectionKey turns (viaNumber + 1)

/-- `loopDetected`.  It leaves `b.generateFullValue md5` behind. -/
def loopDetected (md5 : NetMd5Codec) (secret : Text) (b : BranchId) (message : SipMessage) : Nat :=
  let loopDetectionKey := (b.generateFullValue md5).loopDetectionKey
  if loopDetectionKey = [] then 0
  else
    loopDetectedFrom md5 secret message loopDetectionKey ((viaValues message).length + 1) 0

/-- The branch parameters of the Via values of a message, from the top. -/
def viaBranches (m : SipMessage) : List (Option Text) :=
  (viaValues m).map (getViaTag · (text "branch"))

/-- The Via of a number, counted from 0, is the first one with such a branch. -/
def FirstBranch (m : SipMessage) (k : Nat) (P : Text → Prop) : Prop :=
  (∃ branch, (viaBranches m)[k]? = some (some branch) ∧ P branch) ∧
    ∀ j < k, ∀ branch, (viaBranches m)[j]? = some (some branch) → ¬ P branch

/-- A branch with a signature of this proxy for the call, and with the key. -/
def SignedWithKey (md5 : NetMd5Codec) (secret callId key branch : Text) : Prop :=
  ∃ counter, parse branch = some (counter, signature md5 secret callId counter, key)

section Search

variable {md5 : NetMd5Codec} {secret key : Text} {m : SipMessage}

/-- A Via counts as a loop when its branch is signed with the key. -/
theorem isLoopVia_iff {via : Text} :
    isLoopVia md5 secret m key via = true ↔
      ∃ branch, getViaTag via (text "branch") = some branch ∧
        SignedWithKey md5 secret (getCallIdField m) key branch := by
  have hdrop (counter : Nat) :
      (generateUniquePart md5 secret (getCallIdField m) counter).drop (magicCookie.length + 4) =
        signature md5 secret (getCallIdField m) counter := rfl
  rw [isLoopVia]
  cases getViaTag via (text "branch") with
  | none => simp
  | some branch =>
    simp only [Option.some_inj, exists_eq_left', SignedWithKey]
    cases parse branch with
    | none => simp
    | some parts =>
      obtain ⟨counter, uniqueKey, loopDetectKey⟩ := parts
      simp only [hdrop, Bool.and_eq_true, beq_iff_eq, Option.some_inj, Prod.mk.injEq]
      constructor
      · rintro ⟨rfl, rfl⟩
        exact ⟨counter, rfl, rfl, rfl⟩
      · rintro ⟨_, rfl, rfl, rfl⟩
        exact ⟨rfl, rfl⟩

/-- The loop answers with the first Via at or behind its place that is signed with the key. -/
theorem loopDetectedFrom_eq_succ_iff {k : Nat} : ∀ {turns viaNumber : Nat},
    (viaValues m).length < viaNumber + turns →
      (loopDetectedFrom md5 secret m key turns viaNumber = k + 1 ↔
        viaNumber ≤ k ∧ (∃ via, (viaValues m)[k]? = some via ∧
          isLoopVia md5 secret m key via = true) ∧
          ∀ j < k, viaNumber ≤ j → ∀ via, (viaValues m)[j]? = some via →
            isLoopVia md5 secret m key via = false) := by
  intro turns
  induction turns with
  | zero =>
    intro viaNumber hturns
    rw [loopDetectedFrom]
    refine ⟨fun h => absurd h (Nat.succ_ne_zero k).symm, ?_⟩
    rintro ⟨hle, ⟨via, hvia, -⟩, -⟩
    have hlt := (List.getElem?_eq_some_iff.mp hvia).1
    omega
  | succ turns ih =>
    intro viaNumber hturns
    rw [loopDetectedFrom, getViaFieldSubField_eq_viaValues]
    cases hvia : (viaValues m)[viaNumber]? with
    | none =>
      have hend := List.getElem?_eq_none_iff.mp hvia
      refine ⟨fun h => absurd h (Nat.succ_ne_zero k).symm, ?_⟩
      rintro ⟨hle, ⟨via, hget, -⟩, -⟩
      have hlt := (List.getElem?_eq_some_iff.mp hget).1
      omega
    | some via =>
      dsimp only
      by_cases hloop : isLoopVia md5 secret m key via = true
      · rw [if_pos hloop, Nat.add_right_cancel_iff]
        constructor
        · rintro rfl
          exact ⟨Nat.le_refl _, ⟨via, hvia, hloop⟩, fun j hj hle => absurd hle (by omega)⟩
        · rintro ⟨hle, -, hfirst⟩
          by_contra hne
          have hfalse := hfirst viaNumber (by omega) (Nat.le_refl _) via hvia
          exact Bool.false_ne_true (hfalse.symm.trans hloop)
      · rw [if_neg hloop, ih (by omega)]
        rw [Bool.not_eq_true] at hloop
        constructor
        · rintro ⟨hle, hfound, hfirst⟩
          refine ⟨by omega, hfound, fun j hj hle via' hvia' => ?_⟩
          rcases Nat.eq_or_lt_of_le hle with rfl | hlt
          · rw [hvia] at hvia'
            exact Option.some.inj hvia' ▸ hloop
          · exact hfirst j hj hlt via' hvia'
        · rintro ⟨hle, ⟨via', hvia', hloop'⟩, hfirst⟩
          refine ⟨?_, ⟨via', hvia', hloop'⟩, fun j hj hle => hfirst j hj (by omega)⟩
          rcases Nat.eq_or_lt_of_le hle with rfl | hlt
          · rw [hvia] at hvia'
            rw [← Option.some.inj hvia', hloop] at hloop'
            exact absurd hloop' Bool.false_ne_true
          · exact hlt

theorem viaBranches_getElem? {j : Nat} {branch : Text} :
    (viaBranches m)[j]? = some (some branch) ↔
      ∃ via, (viaValues m)[j]? = some via ∧ getViaTag via (text "branch") = some branch := by
  rw [viaBranches, getElem?_map, Option.map_eq_some_iff]

/-- What `loopDetected` finds, in terms of its key. -/
theorem loopDetected_eq_succ_iff_key {b : BranchId} {k : Nat} :
    loopDetected md5 secret b m = k + 1 ↔ (b.generateFullValue md5).loopDetectionKey ≠ [] ∧
        FirstBranch m k (SignedWithKey md5 secret (getCallIdField m)
          (b.generateFullValue md5).loopDetectionKey) := by
  rw [loopDetected]
  by_cases hkey : (b.generateFullValue md5).loopDetectionKey = []
  · rw [if_pos hkey]
    exact ⟨fun h => absurd h (Nat.succ_ne_zero k).symm, fun h => absurd hkey h.1⟩
  rw [if_neg hkey, loopDetectedFrom_eq_succ_iff (by omega), FirstBranch]
  simp only [viaBranches_getElem?, ← Bool.not_eq_true, isLoopVia_iff]
  constructor
  · rintro ⟨-, ⟨via, hvia, branch, hbranch, hsigned⟩, hfirst⟩
    refine ⟨hkey, ⟨branch, ⟨via, hvia, hbranch⟩, hsigned⟩, ?_⟩
    rintro j hj branch' ⟨via', hvia', hbranch'⟩ hsigned'
    exact hfirst j hj (Nat.zero_le j) via' hvia' ⟨branch', hbranch', hsigned'⟩
  · rintro ⟨-, ⟨branch, ⟨via, hvia, hbranch⟩, hsigned⟩, hfirst⟩
    refine ⟨Nat.zero_le k, ⟨via, hvia, branch, hbranch, hsigned⟩, ?_⟩
    rintro j hj - via' hvia' ⟨branch', hbranch', hsigned'⟩
    exact hfirst j hj branch' ⟨via', hvia', hbranch'⟩ hsigned'

end Search

/-! ## The identifiers of this proxy -/

/-- How the identifiers of this proxy come about: the call and the counter for which the value
was signed, if it was made here, and the contacts that the identifier stands for.  A client
transaction takes over those of its parent until it is forked itself. -/
inductive Created (md5 : NetMd5Codec) (secret : Text) :
    Option (Text × Nat) → BranchId → List Url → Prop where
  | ofMessage (callId : Text) {uniqueCounter : Nat} (hcounter : uniqueCounter < 65536) :
      Created md5 secret (some (callId, uniqueCounter))
        (ofMessage md5 secret callId uniqueCounter) []
  | ofExisting (existingBranchIdValue : Text) :
      Created md5 secret none (ofExisting existingBranchIdValue) []
  | ofParent {made : Option (Text × Nat)} {parentId : BranchId} {contacts : List Url}
      (hparent : Created md5 secret made parentId contacts) (callId : Text) {uniqueCounter : Nat}
      (hcounter : uniqueCounter < 65536) :
      Created md5 secret (some (callId, uniqueCounter))
        (ofParent md5 secret callId parentId uniqueCounter) contacts
  | addFork {made : Option (Text × Nat)} {b : BranchId} {contacts : List Url}
      (hb : Created md5 secret made b contacts) (contact : Url) :
      Created md5 secret made (b.addFork (forkUri contact))
        (if b.forks = [] then [contact] else contacts ++ [contact])
  | generateFullValue {made : Option (Text × Nat)} {b : BranchId} {contacts : List Url}
      (hb : Created md5 secret made b contacts) :
      Created md5 secret made (b.generateFullValue md5) contacts

/-- What holds of an identifier that stands for some contacts. -/
structure Keeps (md5 : NetMd5Codec) (secret : Text) (made : Option (Text × Nat)) (b : BranchId)
    (contacts : List Url) : Prop where
  forks : b.forks = [] ∨ b.forks = orderedForks contacts
  /-- Without a valid value there are forks to make it of. -/
  unfinished : b.parentStringValid = false → b.forks ≠ []
  key : b.parentStringValid = true → b.loopDetectionKey = loopKey md5 contacts
  value : ∀ callId uniqueCounter, made = some (callId, uniqueCounter) →
    uniqueCounter < 65536 ∧ ∃ key, IsLoopKey key ∧
      b.value = branchValue uniqueCounter (signature md5 secret callId uniqueCounter) key ∧
        (b.parentStringValid = true → key = loopKey md5 contacts)

section Identifiers

variable {md5 : NetMd5Codec} {secret : Text} {made : Option (Text × Nat)} {b : BranchId}
  {contacts : List Url}

theorem isLoopKey_loopKey (md5 : NetMd5Codec) (contacts : List Url) :
    IsLoopKey (loopKey md5 contacts) := by
  rw [loopKey]
  split
  · exact .inl rfl
  · exact .inr (isSignature_base64Sig md5 _)

theorem loopKey_eq_nil (md5 : NetMd5Codec) {contacts : List Url} :
    loopKey md5 contacts = [] ↔ contacts = [] := by
  rw [loopKey]
  split
  · next hnil => exact ⟨fun _ => hnil, fun _ => rfl⟩
  · next hne =>
      refine ⟨fun h => ?_, fun h => absurd h hne⟩
      have hlen := (isSignature_base64Sig md5 (forkText contacts)).1
      rw [h] at hlen
      exact absurd hlen (by decide)

theorem isSignature_signature (md5 : NetMd5Codec) (secret callId : Text) (uniqueCounter : Nat) :
    IsSignature (signature md5 secret callId uniqueCounter) :=
  isSignature_base64Sig md5 _

theorem Keeps.base64Sig_forks (h : Keeps md5 secret made b contacts)
    (hvalid : b.parentStringValid = false) :
    md5.base64Sig b.forks.flatten = loopKey md5 contacts := by
  have hforks := h.forks.resolve_left (h.unfinished hvalid)
  have hne : contacts ≠ [] := fun hnil =>
    h.unfinished hvalid (hforks.trans (orderedForks_eq_nil.mpr hnil))
  rw [loopKey, if_neg hne, forkText, hforks]

/-- **The key** is that of the contacts the identifier stands for. -/
theorem Keeps.loopDetectionKey_generateFullValue (h : Keeps md5 secret made b contacts) :
    (b.generateFullValue md5).loopDetectionKey = loopKey md5 contacts := by
  rw [generateFullValue]
  split
  · next hvalid => exact h.key hvalid
  · next hvalid =>
      have hkey := h.base64Sig_forks (Bool.not_eq_true _ ▸ hvalid)
      cases parse b.value with
      | none => exact hkey
      | some parts => exact hkey

/-- **The value** has the key of the contacts behind its signature. -/
theorem Keeps.value_generateFullValue {callId : Text} {uniqueCounter : Nat}
    (h : Keeps md5 secret (some (callId, uniqueCounter)) b contacts) :
    (b.generateFullValue md5).value = branchValue uniqueCounter
      (signature md5 secret callId uniqueCounter) (loopKey md5 contacts) := by
  obtain ⟨hcounter, key, hkey, hvalue, hsame⟩ := h.value callId uniqueCounter rfl
  rw [generateFullValue]
  split
  · next hvalid => rw [hvalue, hsame hvalid]
  · next hvalid =>
      have hparse := parse_branchValue hcounter
        (isSignature_signature md5 secret callId uniqueCounter) hkey
      rw [hvalue, hparse]
      dsimp only
      rw [h.base64Sig_forks (Bool.not_eq_true _ ▸ hvalid), Nat.mod_eq_of_lt hcounter]
      rfl

theorem Keeps.addFork (h : Keeps md5 secret made b contacts) (contact : Url) :
    Keeps md5 secret made (b.addFork (forkUri contact))
      (if b.forks = [] then [contact] else contacts ++ [contact]) := by
  have hforks : (b.addFork (forkUri contact)).forks = recordFork b.forks (forkUri contact) := rfl
  refine ⟨.inr ?_, fun _ => ?_, fun hvalid => absurd hvalid Bool.false_ne_true, ?_⟩
  · rw [hforks]
    by_cases hnil : b.forks = []
    · rw [if_pos hnil, hnil]
      rfl
    · rw [if_neg hnil, h.forks.resolve_left hnil, orderedForks_concat]
  · rw [hforks]
    exact ne_nil_of_mem (mem_recordFork.mpr (.inl rfl))
  · intro callId uniqueCounter hmade
    obtain ⟨hcounter, key, hkey, hvalue, -⟩ := h.value callId uniqueCounter hmade
    exact ⟨hcounter, key, hkey, hvalue, fun hvalid => absurd hvalid Bool.false_ne_true⟩

theorem generateFullValue_forks (md5 : NetMd5Codec) (b : BranchId) :
    (b.generateFullValue md5).forks = b.forks := by
  rw [BranchId.generateFullValue]
  split
  · rfl
  · cases parse b.value with
    | none => rfl
    | some parts => rfl

theorem Keeps.generateFullValue (h : Keeps md5 secret made b contacts) :
    Keeps md5 secret made (b.generateFullValue md5) contacts := by
  refine ⟨?_, fun hvalid => ?_, fun _ => h.loopDetectionKey_generateFullValue, ?_⟩
  · rw [generateFullValue_forks]
    exact h.forks
  · rw [generateFullValue_forks]
    refine h.unfinished ?_
    by_contra hb
    rw [BranchId.generateFullValue, if_pos (by simpa using hb)] at hvalid
    exact hb hvalid
  · rintro callId uniqueCounter rfl
    exact ⟨(h.value callId uniqueCounter rfl).1, loopKey md5 contacts,
      isLoopKey_loopKey md5 contacts, h.value_generateFullValue, fun _ => rfl⟩

theorem Created.keeps (h : Created md5 secret made b contacts) :
    Keeps md5 secret made b contacts := by
  induction h with
  | ofMessage callId hcounter =>
    refine ⟨.inl rfl, fun h => absurd h.symm Bool.false_ne_true, fun _ => rfl, ?_⟩
    rintro _ _ ⟨rfl, rfl⟩
    refine ⟨hcounter, [], .inl rfl, ?_, fun _ => rfl⟩
    rw [← generateUniquePart_append md5 secret callId hcounter, separated, if_pos rfl,
      append_nil]
    rfl
  | ofExisting existingBranchIdValue =>
    refine ⟨.inl rfl, fun h => absurd h.symm Bool.false_ne_true, fun _ => rfl, ?_⟩
    exact fun callId uniqueCounter h => absurd h.symm (Option.some_ne_none _)
  | ofParent hparent callId hcounter ih =>
    have hkey := ih.loopDetectionKey_generateFullValue
    refine ⟨.inl rfl, fun h => absurd h.symm Bool.false_ne_true, fun _ => hkey, ?_⟩
    rintro _ _ ⟨rfl, rfl⟩
    refine ⟨hcounter, _, isLoopKey_loopKey md5 _, ?_, fun _ => rfl⟩
    rw [← generateUniquePart_append md5 secret callId hcounter, ← hkey]
    rfl
  | addFork _ contact ih => exact ih.addFork contact
  | generateFullValue _ ih => exact ih.generateFullValue

theorem Created.loopDetected_eq (h : Created md5 secret made b contacts) (m : SipMessage) :
    loopDetected md5 secret b m = if loopKey md5 contacts = [] then 0
      else loopDetectedFrom md5 secret m (loopKey md5 contacts) ((viaValues m).length + 1) 0 := by
  rw [loopDetected, h.keeps.loopDetectionKey_generateFullValue]

end Identifiers

/-! ## Generated branches -/

/-- A branch that this proxy generated: for which call, with which counter, and for a fork to
which contacts. -/
structure Generated (md5 : NetMd5Codec) (secret : Text) where
  callId : Text
  uniqueCounter : Nat
  contacts : List Url
  id : BranchId
  created : Created md5 secret (some (callId, uniqueCounter)) id contacts

namespace Generated

variable {md5 : NetMd5Codec} {secret : Text}

/-- The branch parameter that this proxy writes. -/
def branch (g : Generated md5 secret) : Text := g.id.data md5

/-- All texts that a signature is taken of on the way. -/
def hashed (g : Generated md5 secret) : List Text :=
  (secret ++ sizeBytes g.uniqueCounter ++ g.callId) ::
    if g.contacts = [] then [] else [forkText g.contacts]

/-- **A generated branch** is signed for its own call only, and has the key of the targets with
the same text. -/
theorem signedWithKey_iff (g : Generated md5 secret) (hideal : md5.Ideal g.hashed) {callId : Text}
    {contacts : List Url} (hcontacts : contacts ≠ []) :
    SignedWithKey md5 secret callId (loopKey md5 contacts) g.branch ↔
      g.callId = callId ∧ g.contacts ≠ [] ∧ forkText g.contacts = forkText contacts := by
  have hkeeps := g.created.keeps
  have hcounter := (hkeeps.value _ _ rfl).1
  have hparse : parse g.branch = some (g.uniqueCounter,
      signature md5 secret g.callId g.uniqueCounter, loopKey md5 g.contacts) := by
    rw [branch, data, hkeeps.value_generateFullValue]
    exact parse_branchValue hcounter (isSignature_signature md5 _ _ _) (isLoopKey_loopKey md5 _)
  rw [SignedWithKey, hparse]
  constructor
  · rintro ⟨_, hparts⟩
    obtain ⟨rfl, hsig, hkey⟩ : _ ∧ _ ∧ loopKey md5 g.contacts = loopKey md5 contacts := by
      simpa only [Option.some_inj, Prod.mk.injEq] using hparts
    have hne : g.contacts ≠ [] := by
      rw [Ne, ← loopKey_eq_nil md5, hkey, loopKey_eq_nil]
      exact hcontacts
    have hcall := hideal.eq_of_base64Sig mem_cons_self hsig.symm
    rw [loopKey, loopKey, if_neg hne, if_neg hcontacts] at hkey
    have hmem : forkText g.contacts ∈ g.hashed := by
      rw [hashed, if_neg hne]
      exact mem_cons_of_mem _ mem_cons_self
    exact ⟨(append_cancel_left hcall).symm, hne,
      (hideal.eq_of_base64Sig hmem hkey.symm).symm⟩
  · rintro ⟨rfl, hne, htext⟩
    refine ⟨g.uniqueCounter, ?_⟩
    rw [loopKey, loopKey, if_neg hne, if_neg hcontacts, htext]

end Generated

/-! ## Which loops are found -/

/-- A server transaction that is forked. -/
def forked (existingBranchIdValue : Text) (contacts : List Url) : BranchId :=
  contacts.foldl (fun b contact => b.addFork (forkUri contact)) (ofExisting existingBranchIdValue)

theorem created_forked (md5 : NetMd5Codec) (secret existingBranchIdValue : Text)
    (contacts : List Url) :
    Created md5 secret none (forked existingBranchIdValue contacts) contacts := by
  have hforks (contacts : List Url) :
      (forked existingBranchIdValue contacts).forks = orderedForks contacts := by
    induction contacts using reverseRecOn with
    | nil => rfl
    | append_singleton contacts contact ih =>
      rw [orderedForks_concat, ← ih, forked, foldl_append]
      rfl
  induction contacts using reverseRecOn with
  | nil => exact .ofExisting existingBranchIdValue
  | append_singleton contacts contact ih =>
    have hadded := ih.addFork contact
    have hcontacts : (if (forked existingBranchIdValue contacts).forks = [] then [contact]
        else contacts ++ [contact]) = contacts ++ [contact] := by
      split
      · next hnil =>
          rw [hforks, orderedForks_eq_nil] at hnil
          rw [hnil, nil_append]
      · rfl
    rw [hcontacts] at hadded
    rw [forked, foldl_append]
    exact hadded

section Log

variable {md5 : NetMd5Codec} {secret : Text}

/-- What `loopDetected` is expected to find, when the log has all branches that this proxy
generated: the first one for the call and the same set of targets. -/
def FindsSameForks (log : List (Generated md5 secret)) (b : BranchId) (contacts : List Url)
    (m : SipMessage) : Prop :=
  ∀ k, loopDetected md5 secret b m = k + 1 ↔ FirstBranch m k fun branch =>
    ∃ g ∈ log, g.branch = branch ∧ g.callId = getCallIdField m ∧ SameForks g.contacts contacts

/-- What it does find: a branch of the log for the call and for targets of the same text, or
one that was put together of a signature for the call and the key. -/
def LoopMark (log : List (Generated md5 secret)) (callId : Text) (contacts : List Url)
    (branch : Text) : Prop :=
  (∃ g ∈ log, g.branch = branch ∧ g.callId = callId ∧ g.contacts ≠ [] ∧
    forkText g.contacts = forkText contacts) ∨
  (∀ g ∈ log, g.branch ≠ branch) ∧ SignedWithKey md5 secret callId (loopKey md5 contacts) branch

theorem loopMark_iff {log : List (Generated md5 secret)}
    (hideal : md5.Ideal (log.flatMap Generated.hashed)) {callId branch : Text}
    {contacts : List Url} (hcontacts : contacts ≠ []) : LoopMark log callId contacts branch ↔
      SignedWithKey md5 secret callId (loopKey md5 contacts) branch := by
  have hlog : ∀ g ∈ log, md5.Ideal g.hashed := fun g hg s hs =>
    hideal s (mem_flatMap.mpr ⟨g, hg, hs⟩)
  constructor
  · rintro (⟨g, hg, rfl, hcall, hne, htext⟩ | ⟨-, hsigned⟩)
    · exact (g.signedWithKey_iff (hlog g hg) hcontacts).mpr ⟨hcall, hne, htext⟩
    · exact hsigned
  · intro hsigned
    by_cases hbranch : ∃ g ∈ log, g.branch = branch
    · obtain ⟨g, hg, rfl⟩ := hbranch
      exact .inl ⟨g, hg, rfl, (g.signedWithKey_iff (hlog g hg) hcontacts).mp hsigned⟩
    · exact .inr ⟨fun g hg heq => hbranch ⟨g, hg, heq⟩, hsigned⟩

theorem firstBranch_congr {m : SipMessage} {k : Nat} {P Q : Text → Prop}
    (h : ∀ branch, P branch ↔ Q branch) : FirstBranch m k P ↔ FirstBranch m k Q := by
  simp only [FirstBranch, h]

/-- **The hop of a loop** is the first one with a branch of this proxy for the call and for
targets of the same text, or with one put together of their parts; a request that is not forked
has no loop.  The order and the duplicates of the contacts play no role. -/
theorem loopDetected_eq_succ_iff {log : List (Generated md5 secret)}
    (hideal : md5.Ideal (log.flatMap Generated.hashed)) {made : Option (Text × Nat)}
    {b : BranchId} {contacts : List Url} (hb : Created md5 secret made b contacts)
    (m : SipMessage) :
    (∀ k, loopDetected md5 secret b m = k + 1 ↔
      contacts ≠ [] ∧ FirstBranch m k (LoopMark log (getCallIdField m) contacts)) ∧
    ∀ made' b' contacts', Created md5 secret made' b' contacts' → SameForks contacts contacts' →
      loopDetected md5 secret b' m = loopDetected md5 secret b m := by
  constructor
  · intro k
    rw [loopDetected_eq_succ_iff_key, hb.keeps.loopDetectionKey_generateFullValue, Ne,
      loopKey_eq_nil]
    exact and_congr_right fun hcontacts => firstBranch_congr fun branch =>
      (loopMark_iff hideal hcontacts).symm
  · intro made' b' contacts' hb' hsame
    rw [hb'.loopDetected_eq, hb.loopDetected_eq, loopKey_congr md5 hsame]

end Log

/-! ### Loops of one call -/

/-- The call of the requests. -/
def loopCallId : Text := text "f88dfabce84b6a2787ef024a7dbe8749"

/-- The secret of the proxy. -/
def loopSecret : Text := text "1234567890"

/-- A digest that knows what is hashed for them. -/
def loopMd5 : NetMd5Codec :=
  NetMd5Codec.ofTable
    [(firstSigned, text "6db0a7ef44e15a0e4a93cc5917041ba5"),
      (text "1234567890" ++ sizeBytes 1 ++ text "another", text "4196b0de30183ce8a130c55da51fe7bd"),
      (text "sip:asip:b@h", text "956edc46a34e720c371b3beff9b913be")] (by decide)

/-- A Contact of a redirection. -/
def loopContact (s : String) : Url := .ofText (text s) .nameAddr

def twoTargets : List Url := [loopContact "<sip:a>", loopContact "<sip:b@h>"]

/-- One target with their text. -/
def oneTarget : List Url := [loopContact "<sip:asip:b@h>"]

theorem map_forkUri_twoTargets : twoTargets.map forkUri = [text "sip:a", text "sip:b@h"] := by
  decide

theorem map_forkUri_oneTarget : oneTarget.map forkUri = [text "sip:asip:b@h"] := by
  decide

theorem forkText_twoTargets : forkText twoTargets = text "sip:asip:b@h" := by
  rw [forkText, orderedForks, map_forkUri_twoTargets]
  decide

theorem forkText_oneTarget : forkText oneTarget = text "sip:asip:b@h" := by
  rw [forkText, orderedForks, map_forkUri_oneTarget]
  decide

theorem twoTargets_ne_nil : twoTargets ≠ [] := cons_ne_nil _ _

theorem oneTarget_ne_nil : oneTarget ≠ [] := cons_ne_nil _ _

theorem loopKey_of_forkText {contacts : List Url} (hne : contacts ≠ [])
    (htext : forkText contacts = text "sip:asip:b@h") :
    loopKey loopMd5 contacts = text "lW7cRqNOcgw3Gzvv_bkTvg" := by
  rw [loopKey, if_neg hne, htext]
  decide

/-- The identifier of a client transaction, behind a fork to some contacts. -/
def clientId (callId : Text) (uniqueCounter : Fin 65536) (contacts : List Url) : BranchId :=
  ofParent loopMd5 loopSecret callId (forked [] contacts) uniqueCounter

theorem created_clientId (callId : Text) (uniqueCounter : Fin 65536) (contacts : List Url) :
    Created loopMd5 loopSecret (some (callId, uniqueCounter))
      (clientId callId uniqueCounter contacts) contacts :=
  .ofParent (created_forked loopMd5 loopSecret [] contacts) callId uniqueCounter.isLt

def clientBranch (callId : Text) (uniqueCounter : Fin 65536) (contacts : List Url) :
    Generated loopMd5 loopSecret where
  callId := callId
  uniqueCounter := uniqueCounter
  contacts := contacts
  id := clientId callId uniqueCounter contacts
  created := created_clientId callId uniqueCounter contacts

theorem hashed_clientBranch (callId : Text) (uniqueCounter : Fin 65536) (contacts : List Url) :
    (clientBranch callId uniqueCounter contacts).hashed =
      (loopSecret ++ sizeBytes uniqueCounter ++ callId) ::
        if contacts = [] then [] else [forkText contacts] := rfl

/-- A request of the call with some branches, the topmost first. -/
def loopRequest (branches : List Text) : SipMessage where
  firstHeaderLine := text "INVITE sip:someone@example.com SIP/2.0"
  nameValues :=
    branches.map (fun branch => (text "VIA", text "SIP/2.0/TCP example.com;branch=" ++ branch)) ++
      [(text "CALL-ID", loopCallId)]

/-- A branch with a key of the two targets, which is that of the one target. -/
def keyedBranch : Text := text "z9hG4bK-XX-0000bbCn70ThWg5Kk8xZFwQbpQ~lW7cRqNOcgw3Gzvv_bkTvg"

/-- A branch without a key. -/
def plainBranch : Text := text "z9hG4bK-XX-0000bbCn70ThWg5Kk8xZFwQbpQ"

/-- A branch with the key for another call. -/
def otherBranch : Text :=
  text "z9hG4bK-XX-0001QZaw3jAYPOihMMVdpR\x60nvQ~lW7cRqNOcgw3Gzvv_bkTvg"

/-- What was generated for the call with forks, without them, and for the other call. -/
def loopLog : List (Generated loopMd5 loopSecret) :=
  [clientBranch loopCallId 0 twoTargets, clientBranch loopCallId 0 [],
    clientBranch (text "another") 1 twoTargets]

theorem ideal_loopMd5 : loopMd5.Ideal (loopLog.flatMap Generated.hashed) := by
  have hhashed : loopLog.flatMap Generated.hashed =
      [firstSigned, text "sip:asip:b@h", firstSigned,
        text "1234567890" ++ sizeBytes 1 ++ text "another", text "sip:asip:b@h"] := by
    rw [loopLog, flatMap_cons, flatMap_cons, flatMap_cons, hashed_clientBranch,
      hashed_clientBranch, hashed_clientBranch, if_neg twoTargets_ne_nil, if_pos rfl,
      forkText_twoTargets]
    rfl
  rw [hhashed]
  exact NetMd5Codec.ideal_ofTable _ _ (by decide) (by decide) (by decide)

/-- A fork to a target with the text of two others is taken for a loop, a request without forks
for none, and a key that was put behind a branch without one is not told from the real one. -/
theorem not_findsSameForks_oneText :
    loopMd5.Ideal (loopLog.flatMap Generated.hashed) ∧
      ¬ FindsSameForks (loopLog.take 1) (forked [] oneTarget) oneTarget
        (loopRequest [keyedBranch]) ∧
      ¬ FindsSameForks (loopLog.drop 1) (forked [] []) [] (loopRequest [plainBranch]) ∧
      ¬ FindsSameForks (loopLog.drop 1) (forked [] oneTarget) oneTarget
        (loopRequest [keyedBranch]) := by
  have hone : text "sip:asip:b@h" ∈ oneTarget.map forkUri := by
    rw [map_forkUri_oneTarget]
    exact mem_singleton_self _
  have htwo : text "sip:asip:b@h" ∉ twoTargets.map forkUri := by
    rw [map_forkUri_twoTargets]
    decide
  have hfound : loopDetected loopMd5 loopSecret (forked [] oneTarget)
      (loopRequest [keyedBranch]) = 0 + 1 := by
    rw [(created_forked loopMd5 loopSecret [] oneTarget).loopDetected_eq,
      loopKey_of_forkText oneTarget_ne_nil forkText_oneTarget]
    decide +kernel
  refine ⟨ideal_loopMd5, fun h => ?_, fun h => ?_, fun h => ?_⟩
  · obtain ⟨⟨branch, -, g, hg, -, -, hsame⟩, -⟩ := (h 0).mp hfound
    rw [mem_singleton.mp hg] at hsame
    exact htwo ((hsame _).mpr hone)
  · have hloop := (h 0).mpr ⟨⟨plainBranch, by decide +kernel, _, mem_cons_self,
      by decide, by decide, fun contactUri => Iff.rfl⟩,
      fun j hj => absurd hj (Nat.not_lt_zero j)⟩
    exact absurd hloop (by decide)
  · obtain ⟨⟨branch, -, g, hg, -, -, hsame⟩, -⟩ := (h 0).mp hfound
    rcases mem_cons.mp hg with rfl | hg
    · exact absurd ((hsame _).mpr hone) not_mem_nil
    · rw [mem_singleton.mp hg] at hsame
      exact htwo ((hsame _).mpr hone)

/-- The third Via is found: the first one is that of another proxy, the second one of another
call.  The order of the targets and a repeated one change nothing. -/
theorem loopDetected_eq_succ_iff_thirdVia :
    FirstBranch (loopRequest [text "z9hG4bK-524287-1", otherBranch, keyedBranch]) 2
        (LoopMark loopLog loopCallId twoTargets) ∧
      loopDetected loopMd5 loopSecret (forked [] (twoTargets.reverse ++ twoTargets))
        (loopRequest [text "z9hG4bK-524287-1", otherBranch, keyedBranch]) = 3 := by
  obtain ⟨hfirst, hsame⟩ := loopDetected_eq_succ_iff ideal_loopMd5
    (created_forked loopMd5 loopSecret [] twoTargets)
    (loopRequest [text "z9hG4bK-524287-1", otherBranch, keyedBranch])
  have hfound : loopDetected loopMd5 loopSecret (forked [] twoTargets)
      (loopRequest [text "z9hG4bK-524287-1", otherBranch, keyedBranch]) = 2 + 1 := by
    rw [(created_forked loopMd5 loopSecret [] twoTargets).loopDetected_eq,
      loopKey_of_forkText twoTargets_ne_nil forkText_twoTargets]
    decide +kernel
  refine ⟨((hfirst 2).mp hfound).2, ?_⟩
  rw [hsame _ _ _ (created_forked loopMd5 loopSecret [] _) fun contactUri => ?_, hfound]
  rw [map_append, mem_append, map_reverse, mem_reverse, or_self]

end BranchId

end SipXRouter
