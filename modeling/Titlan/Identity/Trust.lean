import Titlan.Identity.Store

/-! # Addresses and identities

Everywhere in the protocol a peer's address stands for its identity key: it is the lowercase hex of the
serialized key. `decrypt_setup_from_unknown` computes it from the key; `establish_session` takes the
`address_name` field of the bundle and does not compare the two. The tables keep the binding exactly as
long as the bundles a client accepts keep it. -/

namespace Titlan

open Foundation

variable {Key : Type} {lib : KeyLib Key}

namespace KeyStore

/-- Every recorded identity, and every conversation's peer address, is the hex of the key recorded under
that address. -/
structure Bound (s : KeyStore) : Prop where
  identity : ∀ address key, s.identities address = some key → address = hexEncode key
  peer : ∀ address ∈ s.peerAddresses,
    ∃ key, s.identities address = some key ∧ address = hexEncode key

theorem bound_initialized (onetime : Bytes) : (initialized onetime).Bound where
  identity _ _ h := by cases h
  peer _ h := by cases h

/-- A bundle accepted by the event names the hex of its own identity key. -/
def NamesItself (lib : KeyLib Key) (s : KeyStore) (e : KeyEvent) : Prop :=
  ∀ address key, s.Accepts lib address key e → address = addressForIdentity lib key

variable {s : KeyStore} {address : String} {key : Key}

/-- Recording a key under its own address keeps the binding. -/
theorem Bound.saveIdentity (h : s.Bound) (hself : address = addressForIdentity lib key) :
    (s.saveIdentity lib address key).Bound := by
  have hidentity : ∀ a k, (s.saveIdentity lib address key).identities a = some k →
      a = hexEncode k := by
    intro a k hk
    by_cases ha : a = address
    · subst ha
      rw [identities_saveIdentity_self] at hk
      rw [← Option.some.inj hk, hself, addressForIdentity]
    · rw [identities_saveIdentity_of_ne lib s key ha] at hk
      exact h.identity a k hk
  refine ⟨hidentity, fun a ha => ?_⟩
  by_cases heq : a = address
  · subst heq
    have hrow := identities_saveIdentity_self lib s a key
    exact ⟨_, hrow, hidentity a _ hrow⟩
  · obtain ⟨k, hk, -⟩ := h.peer a ha
    have hrow : (s.saveIdentity lib address key).identities a = some k :=
      (identities_saveIdentity_of_ne lib s key heq).trans hk
    exact ⟨k, hrow, hidentity a k hrow⟩

/-- A recorded key is under its own address. -/
theorem Bound.of_saveIdentity (h : (s.saveIdentity lib address key).Bound) :
    address = addressForIdentity lib key :=
  h.identity address _ (identities_saveIdentity_self lib s address key)

/-- A conversation with a recorded peer keeps the binding. -/
theorem Bound.converse {go : Bool} {k : Bytes} (h : s.Bound) (hrow : s.identities address = some k) :
    (s.converse go address).Bound := by
  cases go with
  | false => exact h
  | true =>
    refine ⟨h.identity, fun a ha => ?_⟩
    obtain ha | ha := List.mem_append.mp ha
    · exact h.peer a ha
    · rw [List.mem_singleton.mp ha]
      exact ⟨k, hrow, h.identity address k hrow⟩

theorem Bound.of_converse {go : Bool} (h : (s.converse go address).Bound) : s.Bound := by
  cases go with
  | false => exact h
  | true => exact ⟨h.identity, fun a ha => h.peer a (List.mem_append_left _ ha)⟩

/-- The prekeys play no part. -/
theorem Bound.removeNamed (h : s.Bound) (named : Option ℕ) : (s.removeNamed named).Bound := by
  constructor
  · simpa using h.identity
  · simpa using h.peer

/-- A trusted key of a conversation's peer is the one recorded, hence under its own address. -/
theorem Bound.of_trusted (h : s.Bound) (hpeer : address ∈ s.peerAddresses)
    (htrust : s.isTrustedIdentity lib address key = true) : address = addressForIdentity lib key := by
  obtain ⟨known, hknown, haddress⟩ := h.peer address hpeer
  rw [isTrustedIdentity, hknown] at htrust
  rw [haddress, of_decide_eq_true htrust, addressForIdentity]

/-- **Step.** From a bound store an event leads to a bound store exactly when the bundle it accepts, if
any, names itself. -/
theorem bound_step {profile : PaddingProfile} {e : KeyEvent} {s' : KeyStore} (h : s.Bound)
    (hstep : s.step lib profile e = some s') : s'.Bound ↔ s.NamesItself lib e := by
  cases change_of_step hstep with
  | refused hacc hopen => exact iff_of_true h fun address key hk => absurd hk (hacc address key)
  | minted hacc hopen =>
    exact iff_of_true ⟨h.identity, h.peer⟩ fun address key hk => absurd hk (hacc address key)
  | @opened address msg go hopen htrust haddr =>
    have hself : address = addressForIdentity lib msg.identityKey :=
      haddr.elim (fun hpeer => h.of_trusted hpeer htrust) id
    refine iff_of_true ?_ fun _ _ hacc => absurd hopen hacc.not_opens
    refine ((h.saveIdentity hself).removeNamed msg.preKeyId).converse
      (k := lib.serialize msg.identityKey) ?_
    rw [identities_removeNamed, identities_saveIdentity_self]
  | @accepted address key go hacc htrust =>
    constructor
    · intro hbound address' key' hacc'
      obtain ⟨rfl, rfl⟩ := hacc.unique hacc'
      exact hbound.of_converse.of_saveIdentity
    · intro hnames
      exact (h.saveIdentity (hnames address key hacc)).converse
        (identities_saveIdentity_self lib s address key)

end KeyStore

/-- **Address and identity stay bound exactly while accepted bundles name themselves.** Over every
history from a fresh identity. -/
theorem addresses_bound_iff (lib : KeyLib Key) (profile : PaddingProfile) (onetime : Bytes)
    (es : List KeyEvent) (s : KeyStore)
    (hrun : run (KeyStore.step lib profile) (.initialized onetime) es = some s) :
    (∀ es' t, es' <+: es → run (KeyStore.step lib profile) (.initialized onetime) es' = some t →
        t.Bound) ↔
      Along (KeyStore.step lib profile) (KeyStore.NamesItself lib) (.initialized onetime) es :=
  forall_prefix_iff_along (fun _ _ _ h hstep => KeyStore.bound_step h hstep)
    (KeyStore.bound_initialized onetime) hrun

/-! ## A bundle under another name -/

/-- Keys that are their own bytes. -/
def byteKeys : KeyLib Bytes where
  decodeIdentity := .ok
  serialize key := key
  parseSetup ciphertext := .ok ⟨ciphertext, none⟩

/-- A bundle with identity key `05 01` under the given address. -/
def bundleNamed (addressName : String) : BundleData where
  addressName := addressName
  registrationId := 7
  deviceId := 1
  identityKey := [5, 1]
  signedPrekeyId := 1
  signedPrekeyPub := [1]
  signedPrekeySig := [2]
  kyberPrekeyId := 1
  kyberPrekeyPub := [3]
  kyberPrekeySig := [4]
  onetimePrekey := none

/-- The client accepts a bundle with that address and starts a conversation. -/
def acceptBundle (addressName : String) : KeyEvent :=
  .establish ((serializeBundle (bundleNamed addressName)).getD []) (.ok ()) true

/-- **An accepted bundle breaks the binding.** The client records key `05 01` under the address
`mallory` and has a conversation with that peer. -/
theorem bundle_breaks_binding :
    ∃ s, run (KeyStore.step byteKeys .defaultProfile) (.initialized [9]) [acceptBundle "mallory"] =
        some s ∧
      s.identities "mallory" = some [5, 1] ∧ s.peerAddresses = ["mallory"] ∧ ¬ s.Bound := by
  refine ⟨_, rfl, rfl, rfl, fun hbound => ?_⟩
  have hname : "mallory" = hexEncode [5, 1] := hbound.identity "mallory" [5, 1] rfl
  exact absurd hname (by decide)

/-- A bundle that names itself keeps it. -/
theorem honest_bundle_bound :
    ∃ s, run (KeyStore.step byteKeys .defaultProfile) (.initialized [9]) [acceptBundle "0501"] =
        some s ∧ s.peerAddresses = ["0501"] ∧ s.Bound := by
  obtain ⟨s, hs, hpeers⟩ : ∃ s, run (KeyStore.step byteKeys .defaultProfile) (.initialized [9])
      [acceptBundle "0501"] = some s ∧ s.peerAddresses = ["0501"] := ⟨_, rfl, rfl⟩
  refine ⟨s, hs, hpeers, (addresses_bound_iff byteKeys .defaultProfile [9] _ s hs).mpr ?_ _ s
    (List.prefix_refl _) hs⟩
  refine (along_cons_of_some rfl).mpr ⟨?_, trivial⟩
  rintro address key ⟨data, s', hdata, hkey, hs'⟩
  obtain ⟨data', key', hdata', hkey', rfl, -, -⟩ := KeyStore.establishSession_ok hs'
  cases hdata.symm.trans (show _ = Except.ok (bundleNamed "0501") from rfl)
  cases hdata'.symm.trans hdata
  cases hkey
  decide

end Titlan
