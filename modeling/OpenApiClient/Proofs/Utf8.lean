import OpenApiClient.Text.Utf8

/-! Text as UTF-8. The octets of a character are read back as that character wherever they stand, so that text
is read back from its octets without a fault. -/

namespace OpenApiClient.Text

/-- An octet between characters is a character by itself or says what has to follow. -/
theorem readUtf8_first {position : Nat} {octet : UInt8} {rest : List UInt8} {count low high : Nat}
    (follows : following? octet.toNat = some (count, low, high)) :
    readUtf8 position .between (octet :: rest) =
      if count = 0 then .character (Char.ofNat octet.toNat) :: readUtf8 (position + 1) .between rest
      else readUtf8 (position + 1)
        (.inside position octet (firstBits octet.toNat count) count low high) rest := by
  rw [readUtf8]
  cases count with
  | zero => simp [follows]
  | succ count => simp [follows]

theorem readUtf8_owed {position first : Nat} {lead octet : UInt8} {rest : List UInt8}
    {bits owed low high : Nat} (lower : low ≤ octet.toNat) (upper : octet.toNat ≤ high) :
    readUtf8 position (.inside first lead bits owed low high) (octet :: rest) =
      if owed = 1 then
        .character (Char.ofNat (bits * 64 + octet.toNat % 64)) :: readUtf8 (position + 1) .between rest
      else
        readUtf8 (position + 1) (.inside first lead (bits * 64 + octet.toNat % 64) (owed - 1) 0x80 0xbf) rest := by
  rw [readUtf8]
  simp [lower, upper]

theorem following?_one {octet : Nat} (upper : octet < 128) : following? octet = some (0, 0, 0) := by
  simp [following?, upper]

theorem following?_two {octet : Nat} (lower : 194 ≤ octet) (upper : octet < 224) :
    following? octet = some (1, 128, 191) := by
  have beyond : ¬octet < 128 := by omega
  have start : ¬octet < 194 := by omega
  simp [following?, beyond, start, upper]

/-- The second octet of three leaves out what two octets can say and the surrogates. -/
theorem following?_three {octet : Nat} (lower : 224 ≤ octet) (upper : octet < 240) :
    following? octet =
      some (2, if octet = 224 then 160 else 128, if octet = 237 then 159 else 191) := by
  have notOne : ¬octet < 128 := by omega
  have notFollowing : ¬octet < 194 := by omega
  have notTwo : ¬octet < 224 := by omega
  by_cases first : octet = 224
  · simp [following?, first]
  · by_cases surrogate : octet = 237
    · simp [following?, surrogate]
    · simp [following?, notOne, notFollowing, notTwo, upper, first, surrogate]

/-- The second octet of four leaves out what three octets can say and what is no code point. -/
theorem following?_four {octet : Nat} (lower : 240 ≤ octet) (upper : octet ≤ 244) :
    following? octet =
      some (3, if octet = 240 then 144 else 128, if octet = 244 then 143 else 191) := by
  have cases : octet = 240 ∨ octet = 241 ∨ octet = 242 ∨ octet = 243 ∨ octet = 244 := by omega
  rcases cases with rfl | rfl | rfl | rfl | rfl <;> rfl

variable {point position : Nat} {rest : List UInt8}

theorem toNat_octet {octet : Nat} (bound : octet < 256) : (UInt8.ofNat octet).toNat = octet := by
  rw [UInt8.toNat_ofNat']
  exact Nat.mod_eq_of_lt bound

/-- An octet that follows another carries the last six bits of what it is made of. -/
theorem readUtf8_following {first : Nat} {lead : UInt8} {bits owed low high : Nat}
    (lower : low ≤ point % 64 + 128) (upper : point % 64 + 128 ≤ high) :
    readUtf8 position (.inside first lead bits owed low high) (UInt8.ofNat (point % 64 + 128) :: rest) =
      if owed = 1 then
        .character (Char.ofNat (bits * 64 + point % 64)) :: readUtf8 (position + 1) .between rest
      else
        readUtf8 (position + 1) (.inside first lead (bits * 64 + point % 64) (owed - 1) 128 191) rest := by
  have octet : (UInt8.ofNat (point % 64 + 128)).toNat = point % 64 + 128 := toNat_octet (by omega)
  have carried : (point % 64 + 128) % 64 = point % 64 := by omega
  rw [readUtf8_owed (by rwa [octet]) (by rwa [octet]), octet, carried]

theorem readUtf8_one (upper : point < 128) :
    readUtf8 position .between (UInt8.ofNat point :: rest) =
      .character (Char.ofNat point) :: readUtf8 (position + 1) .between rest := by
  have first : (UInt8.ofNat point).toNat = point := toNat_octet (by omega)
  rw [readUtf8_first (following?_one (by rwa [first])), first, if_pos rfl]

theorem readUtf8_two (lower : 128 ≤ point) (upper : point < 2048) :
    readUtf8 position .between
        (UInt8.ofNat (point / 64 % 32 + 192) :: UInt8.ofNat (point % 64 + 128) :: rest) =
      .character (Char.ofNat point) :: readUtf8 (position + 1 + 1) .between rest := by
  have first : (UInt8.ofNat (point / 64 % 32 + 192)).toNat = point / 64 + 192 := by
    rw [toNat_octet (by omega)]
    omega
  have follows := following?_two (by omega : 194 ≤ point / 64 + 192) (by omega)
  have bits : firstBits (point / 64 + 192) 1 = point / 64 := by
    change (point / 64 + 192) % 32 = point / 64
    omega
  have whole : point / 64 * 64 + point % 64 = point := by omega
  rw [readUtf8_first (by rwa [first]), if_neg (by decide), first, bits,
    readUtf8_following (by omega) (by omega), if_pos rfl, whole]

theorem readUtf8_three (lower : 2048 ≤ point) (upper : point < 65536)
    (scalar : point < 0xd800 ∨ 0xdfff < point) :
    readUtf8 position .between
        (UInt8.ofNat (point / 4096 % 16 + 224) :: UInt8.ofNat (point / 64 % 64 + 128) ::
          UInt8.ofNat (point % 64 + 128) :: rest) =
      .character (Char.ofNat point) :: readUtf8 (position + 1 + 1 + 1) .between rest := by
  have first : (UInt8.ofNat (point / 4096 % 16 + 224)).toNat = point / 4096 + 224 := by
    rw [toNat_octet (by omega)]
    omega
  have follows := following?_three (by omega : 224 ≤ point / 4096 + 224) (by omega)
  have bits : firstBits (point / 4096 + 224) 2 = point / 4096 := by
    change (point / 4096 + 224) % 16 = point / 4096
    omega
  have low : (if point / 4096 + 224 = 224 then 160 else 128) ≤ point / 64 % 64 + 128 := by
    split <;> omega
  have high : point / 64 % 64 + 128 ≤ (if point / 4096 + 224 = 237 then 159 else 191) := by
    split <;> omega
  have whole : (point / 4096 * 64 + point / 64 % 64) * 64 + point % 64 = point := by omega
  rw [readUtf8_first (by rwa [first]), if_neg (by decide), first, bits, readUtf8_following low high,
    if_neg (by decide), readUtf8_following (by omega) (by omega), if_pos rfl, whole]

theorem readUtf8_four (lower : 65536 ≤ point) (upper : point < 0x110000) :
    readUtf8 position .between
        (UInt8.ofNat (point / 262144 % 8 + 240) :: UInt8.ofNat (point / 4096 % 64 + 128) ::
          UInt8.ofNat (point / 64 % 64 + 128) :: UInt8.ofNat (point % 64 + 128) :: rest) =
      .character (Char.ofNat point) :: readUtf8 (position + 1 + 1 + 1 + 1) .between rest := by
  have first : (UInt8.ofNat (point / 262144 % 8 + 240)).toNat = point / 262144 + 240 := by
    rw [toNat_octet (by omega)]
    omega
  have follows := following?_four (by omega : 240 ≤ point / 262144 + 240) (by omega)
  have bits : firstBits (point / 262144 + 240) 3 = point / 262144 := by
    change (point / 262144 + 240) % 8 = point / 262144
    omega
  have low : (if point / 262144 + 240 = 240 then 144 else 128) ≤ point / 4096 % 64 + 128 := by
    split <;> omega
  have high : point / 4096 % 64 + 128 ≤ (if point / 262144 + 240 = 244 then 143 else 191) := by
    split <;> omega
  have whole : ((point / 262144 * 64 + point / 4096 % 64) * 64 + point / 64 % 64) * 64 + point % 64 = point := by
    omega
  rw [readUtf8_first (by rwa [first]), if_neg (by decide), first, bits, readUtf8_following low high,
    if_neg (by decide), readUtf8_following (by omega) (by omega), if_neg (by decide),
    readUtf8_following (by omega) (by omega), if_pos rfl, whole]

theorem readUtf8_character (c : Char) (position : Nat) (rest : List UInt8) :
    ∃ next, readUtf8 position .between (String.utf8EncodeChar c ++ rest) =
      .character c :: readUtf8 next .between rest := by
  have same : Char.ofNat c.val.toNat = c := Char.ofNat_toNat c
  have scalar : c.val.toNat < 0xd800 ∨ 0xdfff < c.val.toNat ∧ c.val.toNat < 0x110000 := c.valid
  unfold String.utf8EncodeChar
  dsimp only
  by_cases one : c.val.toNat ≤ 127
  · rw [if_pos one]
    exact ⟨_, same ▸ readUtf8_one (by omega)⟩
  · rw [if_neg one]
    by_cases two : c.val.toNat ≤ 2047
    · rw [if_pos two]
      exact ⟨_, same ▸ readUtf8_two (by omega) (by omega)⟩
    · rw [if_neg two]
      by_cases three : c.val.toNat ≤ 65535
      · rw [if_pos three]
        exact ⟨_, same ▸ readUtf8_three (by omega) (by omega) (by omega)⟩
      · rw [if_neg three]
        exact ⟨_, same ▸ readUtf8_four (by omega) (by omega)⟩

theorem decodeUtf8_encodeUtf8 (text : List Char) : decodeUtf8 (encodeUtf8 text) = .ok text := by
  have read : ∀ position, charactersOf (readUtf8 position .between (encodeUtf8 text)) = .ok text := by
    induction text with
    | nil => intro position; rfl
    | cons c rest ih =>
        intro position
        obtain ⟨next, first⟩ := readUtf8_character c position (encodeUtf8 rest)
        rw [encodeUtf8, List.flatMap_cons, ← encodeUtf8, first, charactersOf, ih next]
        rfl
  exact read 0

end OpenApiClient.Text
