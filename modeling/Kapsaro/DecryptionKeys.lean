import Kapsaro.ToyDocuments

/-!
# Decryption keys — the wrap a member opens, and the key it is opened with

`feature/context/crypto/decryption_key.rs` chooses a local key from a wrap list, and
`feature/envelope/unwrap.rs` looks the wrap up again under the kid of that key.  Recipient handles
are distinct in a checked list; kids may repeat.

* **`LocalKey`** — what a member can open a kid with: the active key, or its keystore's copy.
* **`chooseWrap`** — the two searches in a row; **`unwrap_eq_chooseWrap`**: every opening goes
  through it.
* **`selectLocalDecryptionKey_ok`** — which key is selected.
* **`chooseWrap_ok`** — which wrap is opened: the member's own, under the explicit kid if there is
  one.
* **`selectionLaws`** — together, over every checked list, member and keystore.
-/

namespace DecryptionKeys

open JsonText Limits TextLines Base64Codec WireTexts WireModel DocumentTokens TokenRecords
open Envelope KeyedList ToyCrypto ToyDocuments

variable {ctx : CryptoContext} {set : WrapSet} {handle : MemberHandle}

/-! ## Local keys -/

/-- A member can open a kid with a key: the active one under its own kid, and for another kid what
    the keystore holds. -/
inductive LocalKey (ctx : CryptoContext) (handle : MemberHandle) (kid : Kid) : PrivateKey → Prop
  | active (h : kid = ctx.kid) : LocalKey ctx handle kid ctx.privateKey
  | fallback (h : kid ≠ ctx.kid) {key : PrivateKey}
      (hload : ctx.loadFallbackKey handle kid = .ok (some key)) : LocalKey ctx handle kid key

/-- The part of a selection after the candidate: open the candidate, or report it. -/
theorem openCandidate_ok {kid opened : Kid} {key : PrivateKey} {missing : Error} :
    (if kid = ctx.kid then pure (kid, ctx.privateKey)
      else do
        match ← ctx.loadFallbackKey handle kid with
        | some key => pure (kid, key)
        | none => throw missing : Except Error (Kid × PrivateKey)) = .ok (opened, key)
      ↔ opened = kid ∧ LocalKey ctx handle kid key := by
  by_cases hactive : kid = ctx.kid
  · rw [if_pos hactive]
    constructor
    · intro h
      obtain ⟨rfl, rfl⟩ := Prod.mk.inj (Except.ok.inj h)
      exact ⟨rfl, .active hactive⟩
    · rintro ⟨rfl, hkey⟩
      cases hkey with
      | active _ => rfl
      | fallback hne _ => exact absurd hactive hne
  · rw [if_neg hactive]
    constructor
    · intro h
      obtain ⟨found, hload, h⟩ := bind_eq_ok.mp h
      cases found with
      | none => cases h
      | some found =>
        obtain ⟨rfl, rfl⟩ := Prod.mk.inj (Except.ok.inj h)
        exact ⟨rfl, .fallback hactive hload⟩
    · rintro ⟨rfl, hkey⟩
      cases hkey with
      | active heq => exact absurd heq hactive
      | fallback _ hload => exact bind_eq_ok.mpr ⟨some key, hload, rfl⟩

theorem tryFrom_handle (handle : MemberHandle) : MemberHandle.tryFrom handle.text = .ok handle :=
  MemberHandle.tryFrom_ok handle.valid

/-- **WHICH KEY IS SELECTED**: that of the candidate kid, the explicit one or else the own
    wrap's. -/
theorem selectLocalDecryptionKey_ok {kid : Kid} {key : PrivateKey} :
    ctx.selectLocalDecryptionKey set handle.text = .ok (kid, key)
      ↔ ctx.selectedKidOverride.or (set.selfWrapKid handle) = some kid
        ∧ LocalKey ctx handle kid key := by
  rw [CryptoContext.selectLocalDecryptionKey, tryFrom_handle]
  dsimp only [bind, Except.bind]
  cases ctx.selectedKidOverride.or (set.selfWrapKid handle) with
  | none => exact iff_of_false (fun h => by cases h) fun h => by cases h.1
  | some candidate =>
    refine openCandidate_ok.trans ⟨?_, ?_⟩
    · rintro ⟨rfl, hkey⟩
      exact ⟨rfl, hkey⟩
    · rintro ⟨heq, hkey⟩
      obtain rfl := Option.some.inj heq
      exact ⟨rfl, hkey⟩

/-! ## Checked wrap lists -/

/-- One wrap for each recipient handle. -/
def OneForEach (set : WrapSet) : Prop :=
  (set.items.map fun wrap => wrap.recipientHandle.text).Nodup

/-- **A CHECKED LIST HAS ONE WRAP FOR EACH HANDLE**, and the wraps are its items. -/
theorem oneForEach_of_parse {items : List WrapItem} {context : String}
    (h : WrapSet.parse items context = .ok set) :
    List.Forall₂ (fun item wrap => RecipientWrap.parse item = .ok wrap) items set.items
      ∧ OneForEach set := by
  obtain ⟨⟨⟩, hvalid, h⟩ := bind_eq_ok.mp h
  obtain ⟨wraps, hwraps, h⟩ := bind_eq_ok.mp h
  obtain rfl := Except.ok.inj h
  obtain ⟨_, hnodup, hitems⟩ := validateWrapItems_ok.mp hvalid
  obtain ⟨wraps', hwraps', hall⟩ := parseRecipientWraps_ok hitems
  rw [hwraps] at hwraps'
  obtain rfl := Except.ok.inj hwraps'
  refine ⟨hall, ?_⟩
  rw [OneForEach, handles_of_parsed hall]
  exact hnodup

theorem OneForEach.unique (h : OneForEach set) {own other : RecipientWrap}
    (hown : own ∈ set.items) (hother : other ∈ set.items)
    (heq : other.recipientHandle = own.recipientHandle) : other = own :=
  List.inj_on_of_nodup_map h hother hown (congrArg MemberHandle.text heq)

/-- The kid of the member's own wrap. -/
theorem selfWrapKid_eq (h : OneForEach set) {kid : Kid} :
    set.selfWrapKid handle = some kid
      ↔ ∃ own ∈ set.items, own.recipientHandle = handle ∧ own.kid = kid := by
  rw [WrapSet.selfWrapKid, Option.map_eq_some_iff]
  constructor
  · rintro ⟨own, hfind, hkid⟩
    have hhandle : own.recipientHandle = handle := by simpa using List.find?_some hfind
    exact ⟨own, List.mem_of_find?_eq_some hfind, hhandle, hkid⟩
  · rintro ⟨own, hown, rfl, hkid⟩
    refine ⟨own, find?_eq_of_unique hown (decide_eq_true rfl) ?_, hkid⟩
    exact fun other hother heq => h.unique hown hother (of_decide_eq_true heq)

/-- The lookup finds the member's own wrap, under its kid, and nothing else. -/
theorem findByKidForMember_ok (h : OneForEach set) {kid : Kid} {item : RecipientWrap} :
    set.findByKidForMember kid handle = .ok item
      ↔ item ∈ set.items ∧ item.recipientHandle = handle ∧ item.kid = kid := by
  rw [WrapSet.findByKidForMember]
  constructor
  · intro hfound
    cases hfind : set.items.find? fun item => item.kid = kid ∧ item.recipientHandle = handle with
    | some found =>
      rw [hfind] at hfound
      obtain rfl := Except.ok.inj hfound
      have hboth : found.kid = kid ∧ found.recipientHandle = handle := by
        simpa using List.find?_some hfind
      obtain ⟨hkid, hhandle⟩ := hboth
      exact ⟨List.mem_of_find?_eq_some hfind, hhandle, hkid⟩
    | none =>
      rw [hfind] at hfound
      dsimp only at hfound
      split at hfound
      · cases hfound
      · cases hfound
  · rintro ⟨hitem, hhandle, hkid⟩
    rw [find?_eq_of_unique hitem (decide_eq_true ⟨hkid, hhandle⟩) fun other hother heq =>
      h.unique hitem hother ((of_decide_eq_true heq).2.trans hhandle.symm)]

/-! ## The wrap that is opened -/

/-- The wrap a member opens, and the key it opens it with: the selection, and the lookup under the
    selected kid. -/
def chooseWrap (ctx : CryptoContext) (set : WrapSet) (memberHandle : String) :
    Except Error (RecipientWrap × PrivateKey) := do
  let handle ← MemberHandle.tryFrom memberHandle
  let (kid, key) ← ctx.selectLocalDecryptionKey set memberHandle
  let item ← set.findByKidForMember kid handle
  pure (item, key)

/-- **EVERY OPENING GOES THROUGH THE CHOICE.** -/
theorem unwrap_eq_chooseWrap (C : Crypto) (format : WrapFormat) (sid : Uuid)
    (items : List WrapItem) (memberHandle : String) (ctx : CryptoContext) :
    unwrapMasterKeyWithContext C format sid items memberHandle ctx = (do
      let set ← WrapSet.parse items "Document"
      let (item, key) ← chooseWrap ctx set memberHandle
      unwrapMasterKey C format item sid key.kemSecret) := by
  rw [unwrapMasterKeyWithContext]
  refine bind_congr fun set => ?_
  rw [chooseWrap, bind_assoc]
  refine bind_congr fun handle => ?_
  rw [bind_assoc]
  refine bind_congr fun selected => ?_
  rw [bind_assoc]
  rfl

/-- **WHICH WRAP IS OPENED**: the member's own one, under the explicit kid if there is one, and
    only with a key the member has for it. -/
theorem chooseWrap_ok (h : OneForEach set) {item : RecipientWrap} {key : PrivateKey} :
    chooseWrap ctx set handle.text = .ok (item, key)
      ↔ item ∈ set.items ∧ item.recipientHandle = handle
        ∧ (∀ explicit, ctx.selectedKidOverride = some explicit → item.kid = explicit)
        ∧ LocalKey ctx handle item.kid key := by
  constructor
  · intro hok
    obtain ⟨handle', hhandle, hok⟩ := bind_eq_ok.mp hok
    obtain ⟨⟨kid, key'⟩, hselect, hok⟩ := bind_eq_ok.mp hok
    obtain ⟨found, hfind, hok⟩ := bind_eq_ok.mp hok
    obtain ⟨rfl, rfl⟩ := Prod.mk.inj (Except.ok.inj hok)
    rw [tryFrom_handle] at hhandle
    obtain rfl := Except.ok.inj hhandle
    obtain ⟨hitem, hown, rfl⟩ := (findByKidForMember_ok h).mp hfind
    obtain ⟨hcandidate, hkey⟩ := selectLocalDecryptionKey_ok.mp hselect
    refine ⟨hitem, hown, fun explicit hexplicit => ?_, hkey⟩
    rw [hexplicit] at hcandidate
    exact (Option.some.inj hcandidate).symm
  · rintro ⟨hitem, hown, hexplicit, hkey⟩
    have hcandidate : ctx.selectedKidOverride.or (set.selfWrapKid handle) = some item.kid := by
      cases hoverride : ctx.selectedKidOverride with
      | none => exact (selfWrapKid_eq h).mpr ⟨item, hitem, hown, rfl⟩
      | some explicit =>
        rw [hexplicit explicit hoverride]
        rfl
    refine bind_eq_ok.mpr ⟨handle, tryFrom_handle handle, ?_⟩
    refine bind_eq_ok.mpr ⟨(item.kid, key), selectLocalDecryptionKey_ok.mpr ⟨hcandidate, hkey⟩, ?_⟩
    exact bind_eq_ok.mpr ⟨item, (findByKidForMember_ok h).mpr ⟨hitem, hown, rfl⟩, rfl⟩

/-! ## The laws of selection -/

/-- What selection and opening do with a checked wrap list. -/
structure SelectionLaws (C : Crypto) (format : WrapFormat) (sid : Uuid) (items : List WrapItem)
    (handle : MemberHandle) (ctx : CryptoContext) (set : WrapSet) : Prop where
  /-- the wraps are the items, and no two have one handle -/
  checked : List.Forall₂ (fun item wrap => RecipientWrap.parse item = .ok wrap) items set.items
    ∧ OneForEach set
  /-- without an explicit kid, the selected kid is that of the member's own wrap -/
  selectsOwn : ctx.selectedKidOverride = none → ∀ kid key,
    ctx.selectLocalDecryptionKey set handle.text = .ok (kid, key)
      ↔ (∃ own ∈ set.items, own.recipientHandle = handle ∧ own.kid = kid)
        ∧ LocalKey ctx handle kid key
  /-- and the wrap that is opened is exactly that one -/
  agrees : ctx.selectedKidOverride = none → ∀ kid key,
    ctx.selectLocalDecryptionKey set handle.text = .ok (kid, key)
      → ∃ own ∈ set.items, own.recipientHandle = handle ∧ own.kid = kid
        ∧ chooseWrap ctx set handle.text = .ok (own, key)
  /-- whatever is opened is the member's own wrap, under the explicit kid if there is one -/
  opens : ∀ item key, chooseWrap ctx set handle.text = .ok (item, key)
    ↔ item ∈ set.items ∧ item.recipientHandle = handle
      ∧ (∀ explicit, ctx.selectedKidOverride = some explicit → item.kid = explicit)
      ∧ LocalKey ctx handle item.kid key
  /-- nothing but the chosen wrap is opened -/
  unwraps : unwrapMasterKeyWithContext C format sid items handle.text ctx = (do
    let (item, key) ← chooseWrap ctx set handle.text
    unwrapMasterKey C format item sid key.kemSecret)
  /-- where the member has a key for its own wrap, nothing else decides the outcome -/
  decides : ∀ own ∈ set.items, own.recipientHandle = handle →
    (∀ explicit, ctx.selectedKidOverride = some explicit → own.kid = explicit) →
    ∀ key, LocalKey ctx handle own.kid key →
      unwrapMasterKeyWithContext C format sid items handle.text ctx
        = unwrapMasterKey C format own sid key.kemSecret

/-- **SELECTION AND OPENING AGREE**, over every checked list, member and keystore. -/
theorem selectionLaws {C : Crypto} {format : WrapFormat} {sid : Uuid} {items : List WrapItem}
    {handle : MemberHandle} {ctx : CryptoContext} {set : WrapSet}
    (hparse : WrapSet.parse items "Document" = .ok set) :
    SelectionLaws C format sid items handle ctx set := by
  obtain ⟨hall, hone⟩ := oneForEach_of_parse hparse
  have hselects : ctx.selectedKidOverride = none → ∀ kid key,
      ctx.selectLocalDecryptionKey set handle.text = .ok (kid, key)
        ↔ (∃ own ∈ set.items, own.recipientHandle = handle ∧ own.kid = kid)
          ∧ LocalKey ctx handle kid key := by
    intro hnone kid key
    rw [selectLocalDecryptionKey_ok, hnone, Option.none_or, selfWrapKid_eq hone]
  have hunwraps : unwrapMasterKeyWithContext C format sid items handle.text ctx = (do
      let (item, key) ← chooseWrap ctx set handle.text
      unwrapMasterKey C format item sid key.kemSecret) := by
    rw [unwrap_eq_chooseWrap, hparse]
    rfl
  refine ⟨⟨hall, hone⟩, hselects, ?_, fun _ _ => chooseWrap_ok hone, hunwraps, ?_⟩
  · intro hnone kid key hselect
    obtain ⟨⟨own, hown, hhandle, rfl⟩, hkey⟩ := (hselects hnone kid key).mp hselect
    refine ⟨own, hown, hhandle, rfl, (chooseWrap_ok hone).mpr ⟨hown, hhandle, ?_, hkey⟩⟩
    intro explicit hexplicit
    rw [hnone] at hexplicit
    cases hexplicit
  · intro own hown hhandle hexplicit key hkey
    rw [hunwraps, (chooseWrap_ok hone).mpr ⟨hown, hhandle, hexplicit, hkey⟩]
    rfl

/-- Two recipients under one kid: bob's wrap stands first, and alice opens hers. -/
theorem selectionLaws_sharedKid : ∃ set,
    WrapSet.parse [toyWrap bob toyKid [2] (pad 32 [1]), toyWrap alice toyKid [] (pad 32 [1])]
      "Document" = .ok set
    ∧ SelectionLaws toyCrypto .kv toySid
      [toyWrap bob toyKid [2] (pad 32 [1]), toyWrap alice toyKid [] (pad 32 [1])] alice
      (toyContext alice toyKid []) set := by
  have hvalid : validateWrapItems
      [toyWrap bob toyKid [2] (pad 32 [1]), toyWrap alice toyKid [] (pad 32 [1])]
      "Document" = .ok () := by
    refine validateWrapItems_ok.mpr ⟨by decide, by decide, fun item hitem => ?_⟩
    rcases List.mem_cons.mp hitem with rfl | hitem
    · exact validateWrapItem_of_wellFormed (wellFormed_toyWrap _ _ _ _)
    · rw [List.mem_singleton.mp hitem]
      exact validateWrapItem_of_wellFormed (wellFormed_toyWrap _ _ _ _)
  obtain ⟨wraps, hwraps, _⟩ := parseRecipientWraps_ok (validateWrapItems_ok.mp hvalid).2.2
  have hparse : WrapSet.parse
      [toyWrap bob toyKid [2] (pad 32 [1]), toyWrap alice toyKid [] (pad 32 [1])] "Document"
        = .ok ⟨wraps⟩ :=
    bind_eq_ok.mpr ⟨(), hvalid, bind_eq_ok.mpr ⟨wraps, hwraps, rfl⟩⟩
  exact ⟨⟨wraps⟩, hparse, selectionLaws hparse⟩

end DecryptionKeys
