import Titlan.Foundation.Format
import Titlan.Recovery

/-! # What the cursor reads

The format of each of the cursor's readers: fixed-width big-endian fields, byte strings behind their
`u16` length, runs of a given length, UTF-8 text. A reader that ends with the check for trailing bytes
reads the whole of its input. -/

namespace Titlan

open Foundation

/-! ## Big-endian fields -/

theorem fromBeBytes_lt (bs : Bytes) : fromBeBytes bs < 256 ^ bs.length := by
  induction bs with
  | nil => simp [fromBeBytes]
  | cons b bs ih =>
    have hb : b.toNat < 256 := b.toNat_lt
    calc b.toNat * 256 ^ bs.length + fromBeBytes bs
        < b.toNat * 256 ^ bs.length + 256 ^ bs.length := by omega
      _ = (b.toNat + 1) * 256 ^ bs.length := (Nat.succ_mul _ _).symm
      _ ≤ 256 * 256 ^ bs.length := Nat.mul_le_mul_right _ hb
      _ = 256 ^ (b :: bs).length := by rw [List.length_cons, Nat.pow_succ, Nat.mul_comm]

/-- Fields of one width with one value are the same. -/
theorem fromBeBytes_inj {xs ys : Bytes} (hlen : xs.length = ys.length)
    (h : fromBeBytes xs = fromBeBytes ys) : xs = ys := by
  induction xs generalizing ys with
  | nil => exact (List.length_eq_zero_iff.mp hlen.symm).symm
  | cons x xs ih =>
    cases ys with
    | nil => cases hlen
    | cons y ys =>
      rw [List.length_cons, List.length_cons, Nat.succ.injEq] at hlen
      rw [fromBeBytes, fromBeBytes, hlen] at h
      -- the leading byte is the quotient, the rest the remainder
      have hx := fromBeBytes_lt xs
      have hy := fromBeBytes_lt ys
      rw [hlen] at hx
      have hpos : 0 < 256 ^ ys.length := Nat.pow_pos (by decide)
      have hdiv := congrArg (· / 256 ^ ys.length) h
      simp only [Nat.add_comm, Nat.add_mul_div_right _ _ hpos, Nat.div_eq_of_lt hx,
        Nat.div_eq_of_lt hy, Nat.zero_add] at hdiv
      have hbyte : x = y := UInt8.toNat_inj.mp hdiv
      subst hbyte
      rw [ih hlen (Nat.add_left_cancel h)]

theorem toBeBytes_fromBeBytes (bs : Bytes) : toBeBytes bs.length (fromBeBytes bs) = bs := by
  refine fromBeBytes_inj (length_toBeBytes _ _) ?_
  rw [fromBeBytes_toBeBytes, Nat.mod_eq_of_lt (fromBeBytes_lt bs)]

theorem toBeBytes_inj {width m n : ℕ} (hm : m < 256 ^ width) (hn : n < 256 ^ width)
    (h : toBeBytes width m = toBeBytes width n) : m = n := by
  have hval := congrArg fromBeBytes h
  rwa [fromBeBytes_toBeBytes, fromBeBytes_toBeBytes, Nat.mod_eq_of_lt hm, Nat.mod_eq_of_lt hn] at hval

/-! ## Text -/

/-- Text is read from its own bytes and no others. -/
theorem fromUtf8_eq_some {bytes : Bytes} {s : String} : fromUtf8 bytes = some s ↔ bytes = asBytes s := by
  constructor
  · intro h
    unfold fromUtf8 String.fromUTF8? at h
    split at h
    · cases h
      rfl
    · cases h
  · rintro rfl
    exact fromUtf8_asBytes s

theorem utf8_eq_ok {bytes : Bytes} {s : String} : utf8 bytes = .ok s ↔ bytes = asBytes s := by
  rw [← fromUtf8_eq_some, utf8]
  cases fromUtf8 bytes with
  | none =>
    constructor
    · intro h
      cases h
    · intro h
      cases h
  | some t => simp [Option.elim]

/-! ## Results -/

theorem result_bind_ok {α β : Type} {m : Result α} {a : α} {f : α → Result β} (h : m = .ok a) :
    m >>= f = f a := by
  rw [h]
  rfl

theorem result_bind_error {α β : Type} {m : Result α} {e : CoreError} {f : α → Result β}
    (h : m = .error e) : m >>= f = .error e := by
  rw [h]
  rfl

theorem result_map_eq_ok {α β : Type} {g : α → β} {m : Result α} {b : β} :
    m.map g = .ok b ↔ ∃ a, m = .ok a ∧ g a = b := by
  cases m <;> simp [Except.map]

/-- A check of a parser and the rest of it: what is rejected and what gets through. -/
theorem check_outcome {α : Type} {failing holds : Prop} [Decidable failing] {error : CoreError}
    {rest : Result α} (h : holds ↔ ¬ failing) :
    (∀ e, (if failing then (throw error : Result PUnit) >>= fun _ => rest else rest) = .error e ↔
      (¬ holds ∧ e = error) ∨ (holds ∧ rest = .error e)) ∧
    ∀ a, (if failing then (throw error : Result PUnit) >>= fun _ => rest else rest) = .ok a ↔
      holds ∧ rest = .ok a := by
  rw [h]
  by_cases hf : failing
  · have hthrow : ((throw error : Result PUnit) >>= fun _ => rest) = .error error := rfl
    rw [if_pos hf, hthrow]
    simp [hf, eq_comm]
  · rw [if_neg hf]
    simp [hf]

/-! ## Readers -/

/-- The cursor as a tape of bytes. -/
def cursorTape : Tape Cursor UInt8 where
  Valid c := c.pos ≤ c.bytes.length
  rest c := c.bytes.drop c.pos
  skip n c := { c with pos := c.pos + n }
  valid_skip := by
    intro n c hc hn
    rw [List.length_drop] at hn
    show c.pos + n ≤ c.bytes.length
    omega
  rest_skip n c := by rw [List.drop_drop]
  skip_zero c := rfl
  skip_skip m n c := by rw [Nat.add_assoc]

theorem cursorTape_start (bytes : Bytes) :
    cursorTape.Valid ⟨bytes, 0⟩ ∧ cursorTape.rest ⟨bytes, 0⟩ = bytes :=
  ⟨Nat.zero_le _, List.drop_zero⟩

/-- A whole byte string is read as what it stands for. -/
theorem run'_eq_ok {α : Type} {m : Reader α} {F : Format UInt8 α} (h : ReadsAll cursorTape m F)
    (bytes : Bytes) (a : α) : m.run' ⟨bytes, 0⟩ = .ok a ↔ F a bytes := by
  obtain ⟨hvalid, hrest⟩ := cursorTape_start bytes
  rw [← hrest, ← h _ hvalid a, hrest]
  change Prod.fst <$> m ⟨bytes, 0⟩ = _ ↔ _
  cases m ⟨bytes, 0⟩ with
  | error e =>
    constructor
    · intro h
      cases h
    · rintro ⟨_, h⟩
      cases h
  | ok x =>
    constructor
    · intro h
      cases h
      exact ⟨x.2, rfl⟩
    · rintro ⟨_, h⟩
      cases h
      rfl

/-- One byte. -/
def byte : Format UInt8 UInt8 := fun b xs => xs = [b]

/-- A run of bytes of a given length. -/
def fixed (n : ℕ) : Format UInt8 Bytes := fun bytes xs => xs = bytes ∧ bytes.length = n

/-- A big-endian field of a given width. -/
def beField (width : ℕ) : Format UInt8 ℕ := fun n xs => n < 256 ^ width ∧ xs = toBeBytes width n

/-- Bytes behind their `u16` length. -/
def sized : Format UInt8 Bytes := fun bytes xs => putBytes bytes = some xs

section Fields

variable {α : Type} {a : α} {xs : Bytes} {n : ℕ}

/-- A byte that must be the version, in front of the rest. -/
theorem version_andThen {version : UInt8} {F : Format UInt8 α} :
    byte.andThen (fun got => .guard (¬ got ≠ version) F) a xs ↔ ∃ rest, F a rest ∧ xs = version :: rest := by
  constructor
  · rintro ⟨got, _, rest, rfl, ⟨hgot, hF⟩, rfl⟩
    exact ⟨rest, hF, by rw [not_not.mp hgot]; rfl⟩
  · rintro ⟨rest, hF, rfl⟩
    exact ⟨version, [version], rest, rfl, ⟨not_not_intro rfl, hF⟩, rfl⟩

theorem sized_andThen {G : Bytes → Format UInt8 α} :
    sized.andThen G a xs ↔ ∃ bytes field rest, putBytes bytes = some field ∧ G bytes a rest ∧
      xs = field ++ rest := Iff.rfl

theorem fixed_andThen {G : Bytes → Format UInt8 α} :
    (fixed n).andThen G a xs ↔ ∃ bytes rest, bytes.length = n ∧ G bytes a rest ∧ xs = bytes ++ rest := by
  constructor
  · rintro ⟨bytes, _, rest, ⟨rfl, hlen⟩, hG, rfl⟩
    exact ⟨_, rest, hlen, hG, rfl⟩
  · rintro ⟨bytes, rest, hlen, hG, rfl⟩
    exact ⟨bytes, bytes, rest, ⟨rfl, hlen⟩, hG, rfl⟩

theorem beField_andThen {G : ℕ → Format UInt8 α} :
    (beField n).andThen G a xs ↔ ∃ k rest, k < 256 ^ n ∧ G k a rest ∧ xs = toBeBytes n k ++ rest := by
  constructor
  · rintro ⟨k, _, rest, ⟨hk, rfl⟩, hG, rfl⟩
    exact ⟨k, rest, hk, hG, rfl⟩
  · rintro ⟨k, rest, hk, hG, rfl⟩
    exact ⟨k, _, rest, ⟨hk, rfl⟩, hG, rfl⟩

theorem utf8_andThen {field : Bytes} {G : String → Format UInt8 α} :
    (Format.returned (utf8 field)).andThen G a xs ↔ ∃ text, field = asBytes text ∧ G text a xs := by
  constructor
  · rintro ⟨text, _, rest, ⟨htext, rfl⟩, hG, rfl⟩
    exact ⟨text, utf8_eq_ok.mp htext, hG⟩
  · rintro ⟨text, rfl, hG⟩
    exact ⟨text, [], xs, ⟨utf8_asBytes text, rfl⟩, hG, rfl⟩

end Fields

theorem reads_take (n : ℕ) : Reads cursorTape (Cursor.take n) (fixed n) := by
  intro c hc bytes c'
  have hc : c.pos ≤ c.bytes.length := hc
  unfold Cursor.take
  by_cases hn : c.pos + n > c.bytes.length
  · rw [if_pos hn]
    constructor
    · intro h
      cases h
    · rintro ⟨xs, ys, hrest, ⟨rfl, hlen⟩, -⟩
      have hlength := congrArg List.length hrest
      simp only [cursorTape, List.length_drop, List.length_append] at hlength
      omega
  · rw [if_neg hn, Except.ok.injEq, Prod.mk.injEq]
    constructor
    · rintro ⟨rfl, rfl⟩
      have hlen : ((c.bytes.drop c.pos).take n).length = n := by
        rw [List.length_take, List.length_drop]
        omega
      refine ⟨(c.bytes.drop c.pos).take n, _, (List.take_append_drop n _).symm, ⟨rfl, hlen⟩, ?_⟩
      rw [hlen]
      rfl
    · rintro ⟨xs, ys, hrest, ⟨rfl, hlen⟩, rfl⟩
      have hrest : c.bytes.drop c.pos = xs ++ ys := hrest
      rw [hrest, ← hlen, List.take_left]
      exact ⟨rfl, rfl⟩

theorem reads_u8 : Reads cursorTape Cursor.u8 byte := by
  refine ((reads_take 1).bind fun _ => reads_pure _).congr fun b xs => ?_
  constructor
  · rintro ⟨bytes, ys, zs, ⟨rfl, hlen⟩, ⟨rfl, rfl⟩, rfl⟩
    obtain ⟨x, rfl⟩ := List.length_eq_one_iff.mp hlen
    rfl
  · rintro rfl
    exact ⟨[b], [b], [], ⟨rfl, rfl⟩, ⟨rfl, rfl⟩, rfl⟩

theorem reads_be (width : ℕ) :
    Reads cursorTape (do return fromBeBytes (← Cursor.take width)) (beField width) := by
  refine ((reads_take width).bind fun _ => reads_pure _).congr fun n xs => ?_
  constructor
  · rintro ⟨bytes, ys, zs, ⟨rfl, rfl⟩, ⟨rfl, rfl⟩, rfl⟩
    rw [List.append_nil]
    exact ⟨fromBeBytes_lt ys, (toBeBytes_fromBeBytes ys).symm⟩
  · rintro ⟨hn, rfl⟩
    refine ⟨toBeBytes width n, _, [], ⟨rfl, length_toBeBytes _ _⟩, ⟨?_, rfl⟩, (List.append_nil _).symm⟩
    rw [fromBeBytes_toBeBytes, Nat.mod_eq_of_lt hn]

theorem reads_u16 : Reads cursorTape Cursor.u16 (beField 2) := reads_be 2

theorem reads_u32 : Reads cursorTape Cursor.u32 (beField 4) := reads_be 4

theorem reads_u64 : Reads cursorTape Cursor.u64 (beField 8) := reads_be 8

/-- What `putBytes` writes. -/
theorem putBytes_eq_some {bytes field : Bytes} :
    putBytes bytes = some field ↔ bytes.length < 2 ^ 16 ∧ field = toBeBytes 2 bytes.length ++ bytes := by
  rw [putBytes, Option.ite_none_right_eq_some, Option.some.injEq]
  simp only [eq_comm]

theorem reads_bytesField : Reads cursorTape Cursor.bytesField sized := by
  refine (reads_u16.bind fun _ => reads_take _).congr fun bytes xs => ?_
  rw [sized, putBytes_eq_some]
  constructor
  · rintro ⟨n, ys, zs, ⟨hn, rfl⟩, ⟨rfl, rfl⟩, rfl⟩
    exact ⟨hn, rfl⟩
  · rintro ⟨hlen, rfl⟩
    exact ⟨_, _, bytes, ⟨hlen, rfl⟩, ⟨rfl, rfl⟩, rfl⟩

theorem finish_eq_ok {trailing : String} {c c' : Cursor} :
    Cursor.finish trailing c = .ok ((), c') ↔ c.pos = c.bytes.length ∧ c' = c := by
  rw [Cursor.finish, Reader.bind_ok rfl]
  by_cases hend : c.pos = c.bytes.length
  · rw [if_neg (not_not_intro hend)]
    constructor
    · intro h
      cases h
      exact ⟨hend, rfl⟩
    · rintro ⟨-, rfl⟩
      rfl
  · rw [if_pos hend]
    constructor
    · intro h
      cases h
    · intro h
      exact absurd h.1 hend

/-- The closing check and the value returned behind it. -/
theorem readsAll_finish {α : Type} (trailing : String) (a : α) :
    ReadsAll cursorTape (do Cursor.finish trailing; return a) (.nothing a) := by
  intro c hc b
  have hc : c.pos ≤ c.bytes.length := hc
  have hrest : cursorTape.rest c = [] ↔ c.pos = c.bytes.length := by
    rw [show cursorTape.rest c = c.bytes.drop c.pos from rfl, List.drop_eq_nil_iff]
    omega
  rw [Format.nothing, hrest]
  constructor
  · rintro ⟨_, h⟩
    obtain ⟨_, _, hfinish, hpure⟩ := stateT_bind_eq_ok.mp h
    cases hpure
    exact ⟨rfl, (finish_eq_ok.mp hfinish).1⟩
  · rintro ⟨rfl, hend⟩
    exact ⟨c, stateT_bind_eq_ok.mpr ⟨(), c, finish_eq_ok.mpr ⟨hend, rfl⟩, rfl⟩⟩

end Titlan
