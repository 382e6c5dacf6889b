import Mathlib.Data.List.MinMax
import Mathlib.Order.Nat
import Titlan.Identity.Store

/-! # The fixed one-time prekey

An answering client advertises the one-time prekey of id 1, generated at initialization and never
replaced; an offering client mints a fresh one above the largest id. libsignal removes the prekey a
session-setup message names, and the message's sender chooses that id. The fixed prekey is there for the
whole life of the device exactly as long as no message that opens names it. -/

namespace Titlan

open Foundation

variable {Key : Type} {lib : KeyLib Key}

namespace KeyStore

/-- The client can answer an offer: its bundle carries the one-time prekey generated at initialization,
and no offer takes over its id. -/
structure Answerable (own : BundleData) (onetime : Bytes) (s : KeyStore) : Prop where
  exports : s.exportPrekeyBundle own =
    .ok { own with onetimePrekey := some (onetimePrekeyId, onetime) }
  mints : ∀ key id record s', s.mintOfferOnetimePrekey key = .ok ((id, record), s') →
    id ≠ onetimePrekeyId

/-- No session-setup message the event opens names the fixed prekey. -/
def SparesFixed (lib : KeyLib Key) (s : KeyStore) (e : KeyEvent) : Prop :=
  ∀ address msg, s.Opens lib address msg e → msg.preKeyId ≠ some onetimePrekeyId

variable {own : BundleData} {onetime : Bytes} {s : KeyStore}

/-- Everything rests on the row of the fixed id. -/
theorem answerable_iff : s.Answerable own onetime ↔ s.getPreKey onetimePrekeyId = some onetime := by
  constructor
  · intro h
    have hexport := h.exports
    unfold exportPrekeyBundle at hexport
    cases hrow : s.getPreKey onetimePrekeyId with
    | none => rw [hrow] at hexport; cases hexport
    | some key =>
      rw [hrow] at hexport
      injection hexport with hbundle
      injection hbundle with _ _ _ _ _ _ _ _ _ _ hprekey
      cases hprekey
      rfl
  · intro hrow
    refine ⟨by rw [exportPrekeyBundle, hrow], fun key id record s' hmint => ?_⟩
    obtain ⟨row, hfind, -⟩ := Option.map_eq_some_iff.mp hrow
    have hid : row.1 = onetimePrekeyId := of_decide_eq_true (List.find?_some hfind :)
    have hmem : row.1 ∈ s.prekeys.map Prod.fst :=
      List.mem_map_of_mem (List.mem_of_find?_eq_some hfind)
    have hmax : onetimePrekeyId ≤ (s.prekeys.map Prod.fst).foldr max 0 :=
      List.le_max_of_le hmem (Nat.le_of_eq hid.symm)
    rcases s.mintOfferOnetimePrekey_cases key with ⟨e, hout⟩ | ⟨-, hout⟩
    · cases hout.symm.trans hmint
    · cases hout.symm.trans hmint
      omega

theorem getPreKey_removePreKey_self (id : ℕ) : (s.removePreKey id).getPreKey id = none := by
  rw [getPreKey, removePreKey, Option.map_eq_none_iff, List.find?_eq_none]
  intro row hrow
  simpa using (List.mem_filter.mp hrow).2

theorem getPreKey_removePreKey_of_ne {id id' : ℕ} (h : id' ≠ id) :
    (s.removePreKey id).getPreKey id' = s.getPreKey id' := by
  rw [getPreKey, removePreKey, getPreKey, List.find?_filter]
  congr 2
  funext row
  by_cases hrow : row.1 = id'
  · simp [hrow, h]
  · simp [hrow]

/-- Identities and conversations play no part. -/
theorem getPreKey_converse_saveIdentity (named : Option ℕ) (go : Bool) (address : String) (key : Key)
    (id : ℕ) :
    (((s.saveIdentity lib address key).removeNamed named).converse go address).getPreKey id =
      (s.removeNamed named).getPreKey id := by
  cases named <;> cases go <;> rfl

/-- A prekey found stays found when one is added behind it. -/
theorem getPreKey_append {rows : List (ℕ × Bytes)} {id : ℕ} {key : Bytes}
    (h : s.getPreKey id = some key) :
    ({ s with prekeys := s.prekeys ++ rows } : KeyStore).getPreKey id = some key := by
  obtain ⟨row, hfind, rfl⟩ := Option.map_eq_some_iff.mp h
  rw [getPreKey, List.find?_append, hfind]
  rfl

/-- **Step.** From an answerable store an event leads to an answerable one exactly when it does not open
a message that names the fixed prekey. -/
theorem answerable_step {profile : PaddingProfile} {e : KeyEvent} {s' : KeyStore}
    (h : s.Answerable own onetime) (hstep : s.step lib profile e = some s') :
    s'.Answerable own onetime ↔ s.SparesFixed lib e := by
  rw [answerable_iff] at h ⊢
  cases change_of_step hstep with
  | refused hacc hopen => exact iff_of_true h fun address msg hm => absurd hm (hopen address msg)
  | minted hacc hopen =>
    exact iff_of_true (getPreKey_append h) fun address msg hm => absurd hm (hopen address msg)
  | @accepted address key go hacc htrust =>
    refine iff_of_true ?_ fun _ _ hm => absurd hm hacc.not_opens
    exact (getPreKey_converse_saveIdentity none go address key _).trans h
  | @opened address msg go hopen htrust haddr =>
    rw [getPreKey_converse_saveIdentity]
    have hspares : s.SparesFixed lib e ↔ msg.preKeyId ≠ some onetimePrekeyId :=
      ⟨fun hs => hs address msg hopen, fun hne _ _ hm => hopen.unique hm ▸ hne⟩
    rw [hspares]
    cases msg.preKeyId with
    | none => exact iff_of_true h (by simp)
    | some id =>
      by_cases hid : id = onetimePrekeyId
      · subst hid
        refine iff_of_false ?_ (by simp)
        rw [removeNamed, Option.elim_some, getPreKey_removePreKey_self]
        simp
      · refine iff_of_true ?_ fun heq => hid (Option.some.inj heq)
        rw [removeNamed, Option.elim_some, getPreKey_removePreKey_of_ne (Ne.symm hid), h]

end KeyStore

/-- **A device can answer an offer exactly while no opened message names its fixed prekey.** Over every
history from initialization. -/
theorem answerable_forever_iff (lib : KeyLib Key) (profile : PaddingProfile) (own : BundleData)
    (onetime : Bytes) (es : List KeyEvent) (s : KeyStore)
    (hrun : run (KeyStore.step lib profile) (.initialized onetime) es = some s) :
    (∀ es' t, es' <+: es → run (KeyStore.step lib profile) (.initialized onetime) es' = some t →
        t.Answerable own onetime) ↔
      Along (KeyStore.step lib profile) (KeyStore.SparesFixed lib) (.initialized onetime) es :=
  forall_prefix_iff_along (fun _ _ _ h hstep => KeyStore.answerable_step h hstep)
    (KeyStore.answerable_iff.mpr rfl) hrun

/-! ## A message that names the fixed prekey -/

/-- Keys that are their own bytes, and setup messages whose first byte is the prekey id. -/
def namingKeys : KeyLib Bytes where
  decodeIdentity := .ok
  serialize key := key
  parseSetup ciphertext := .ok ⟨[5, 1], ciphertext.head?.map UInt8.toNat⟩

/-- A session-setup envelope that names a prekey arrives on a pairing inbox and opens. -/
def setupNaming (id : UInt8) : KeyEvent :=
  .setup (Envelope.encode ⟨.sessionSetup, [id]⟩) (.ok []) false

/-- The long-lived part of the client's bundle. -/
def ownBundle : BundleData where
  addressName := "0507"
  registrationId := 7
  deviceId := 1
  identityKey := [5, 7]
  signedPrekeyId := 1
  signedPrekeyPub := [1]
  signedPrekeySig := [2]
  kyberPrekeyId := 1
  kyberPrekeyPub := [3]
  kyberPrekeySig := [4]
  onetimePrekey := none

/-- **One message takes the fixed prekey for good.** Afterwards the client cannot export its bundle, and
the next offer gets id 1. -/
theorem setup_takes_fixed_prekey :
    ∃ s, run (KeyStore.step namingKeys .defaultProfile) (.initialized [9]) [setupNaming 1] = some s ∧
      s.exportPrekeyBundle ownBundle = .error (.storage "Query returned no rows") ∧
      (∃ s', s.mintOfferOnetimePrekey [8] = .ok ((1, [8]), s')) ∧
      ¬ s.Answerable ownBundle [9] := by
  refine ⟨_, rfl, rfl, ⟨_, rfl⟩, fun h => ?_⟩
  exact absurd (KeyStore.answerable_iff.mp h) (by decide)

/-- An offer's own prekey is consumed, and the client can still answer. -/
theorem offer_consumed_answerable :
    ∃ s, run (KeyStore.step namingKeys .defaultProfile) (.initialized [9])
        [.mint [8], setupNaming 2] = some s ∧
      s.getPreKey 2 = none ∧ s.Answerable ownBundle [9] := by
  refine ⟨_, rfl, rfl, (answerable_forever_iff namingKeys .defaultProfile ownBundle [9]
    [.mint [8], setupNaming 2] _ rfl).mpr ?_ _ _ (List.prefix_refl _) rfl⟩
  refine (along_cons_of_some rfl).mpr ⟨fun _ _ h => h.elim, (along_cons_of_some rfl).mpr ⟨?_, trivial⟩⟩
  rintro address msg ⟨⟨ciphertext, henv, hmsg⟩, -, -⟩
  cases (show Envelope.parse _ = .ok ⟨.sessionSetup, [2]⟩ from rfl).symm.trans henv
  cases hmsg
  decide

end Titlan
