/-
# The ClientHello of the probe

`build_client_hello` of `l2_probe.rs`, and a reader of what it writes.
-/

import BalanSir.B4.Sni

namespace BalanSir.Daemon.L2Probe

open Lib List B4

def supportedVersionsExt : Bytes := [0x00, 0x2b, 0x00, 0x05, 0x04, 0x03, 0x04]

def random : Bytes := (range 32).map fun i => UInt8.ofNat i * 7 + 0x42

def buildClientHello (sni : Text) : Bytes :=
  let sniBytes := encode sni
  let entryLen := 3 + sniBytes.length
  let listContentLen := entryLen
  let sniExtDataLen := 2 + listContentLen
  let sniExtWire := 4 + sniExtDataLen
  let extensionsDataLen := sniExtWire + supportedVersionsExt.length
  let bodyLen := 2 + 32 + 1 + 12 + 2 + 2 + extensionsDataLen
  let handshakeBodyLen := 4 + bodyLen
  let recordBodyLen := handshakeBodyLen
  [0x16] ++ [0x03, 0x01] ++ be16Bytes recordBodyLen ++
  [0x01] ++ (be32Bytes bodyLen).drop 1 ++
  [0x03, 0x03] ++ random ++ [0x00] ++
  [0x00, 0x0a, 0x13, 0x01, 0x13, 0x02, 0xc0, 0x2f, 0xc0, 0x30, 0xff, 0x01] ++
  [0x01, 0x00] ++ be16Bytes extensionsDataLen ++
  [0x00, 0x00] ++ be16Bytes sniExtDataLen ++ be16Bytes listContentLen ++
  [0x00] ++ be16Bytes sniBytes.length ++ sniBytes ++ supportedVersionsExt

inductive LengthField
  | record
  | handshake
  | sessionId
  | cipherSuites
  | compression
  | extensions
  | serverName
  | nameList
  | hostName
  | supportedVersions
  | versionList
deriving DecidableEq

def LengthField.span (n : ℕ) : LengthField → ℕ × ℕ × ℕ
  | record => (3, 2, 76 + n)
  | handshake => (6, 3, 76 + n)
  | sessionId => (43, 1, 44)
  | cipherSuites => (44, 2, 56)
  | compression => (56, 1, 58)
  | extensions => (58, 2, 76 + n)
  | serverName => (62, 2, 69 + n)
  | nameList => (64, 2, 69 + n)
  | hostName => (67, 2, 69 + n)
  | supportedVersions => (71 + n, 2, 76 + n)
  | versionList => (73 + n, 1, 76 + n)

def number (bytes : Bytes) : ℕ := bytes.foldl (fun n b => n * 256 + b.toNat) 0

def LengthField.IsRight (field : LengthField) (sni : Text) : Prop :=
  let (place, width, stop) := field.span (encode sni).length
  number (between (buildClientHello sni) place (place + width)) = stop - (place + width)

theorem length_version : ([0x03, 0x03] : Bytes).length = 2 := rfl

theorem length_sessionId : ([] : Bytes).length < 256 := by decide

theorem length_compressionMethods : ([0x00] : Bytes).length < 256 := by decide

def hello (sni : Text) : ClientHello where
  recordMajor := 0x03
  recordMinor := 0x01
  legacyVersion := [0x03, 0x03]
  random := random
  sessionId := []
  cipherSuites := [0x13, 0x01, 0x13, 0x02, 0xc0, 0x2f, 0xc0, 0x30, 0xff, 0x01]
  compressionMethods := [0x00]
  before := []
  otherNames := []
  serverName := sni
  moreNames := []
  after := supportedVersionsExt
  length_version := length_version
  length_random := rfl
  length_sessionId := length_sessionId
  length_compressionMethods := length_compressionMethods

theorem length_buildClientHello (sni : Text) :
    (buildClientHello sni).length = 76 + (encode sni).length := by
  simp only [buildClientHello, length_append, length_be16Bytes, length_drop, length_be32Bytes,
    random, length_map, length_range, supportedVersionsExt, length_cons, length_nil]
  omega

theorem hello_bytes (sni : Text) : (hello sni).bytes = buildClientHello sni := by
  have hn : (hello sni).names =
      0 :: (be16Bytes (encode sni).length ++ encode sni) := append_nil _
  have hl : (hello sni).names.length = 3 + (encode sni).length := by
    rw [hn, length_cons, length_append, length_be16Bytes]
    omega
  have hd : (hello sni).sniData.length = 2 + (3 + (encode sni).length) := by
    rw [ClientHello.sniData, length_append, length_be16Bytes, hl]
  have he : (hello sni).extensions.length =
      4 + (2 + (3 + (encode sni).length)) + supportedVersionsExt.length := by
    simp only [ClientHello.extensions, length_append, hd, length_be16Bytes]
    simp only [hello, flatMap_nil, length_nil]
    omega
  have hb : (hello sni).body.length = 2 + 32 + 1 + 12 + 2 + 2 +
      (4 + (2 + (3 + (encode sni).length)) + supportedVersionsExt.length) := by
    simp only [ClientHello.body, length_append, length_cons, length_be16Bytes, he,
      (hello sni).length_random]
    simp only [hello, length_cons, length_nil]
    omega
  rw [ClientHello.bytes, hb, ClientHello.body, he, ClientHello.extensions, hd,
    ClientHello.sniData, hl, hn]
  simp only [buildClientHello, hello, append_assoc]
  rfl

def front (n : ℕ) : Bytes :=
  0x16 :: 0x03 :: 0x01 ::
  (be16Bytes (4 + (2 + 32 + 1 + 12 + 2 + 2 + (4 + (2 + (3 + n)) + 7))) ++ 0x01 ::
  ((be32Bytes (2 + 32 + 1 + 12 + 2 + 2 + (4 + (2 + (3 + n)) + 7))).drop 1 ++ 0x03 :: 0x03 ::
  (random ++ 0x00 :: 0x00 :: 0x0a :: 0x13 :: 0x01 :: 0x13 :: 0x02 :: 0xc0 :: 0x2f :: 0xc0 ::
  0x30 :: 0xff :: 0x01 :: 0x01 :: 0x00 :: (be16Bytes (4 + (2 + (3 + n)) + 7) ++ 0x00 :: 0x00 ::
  (be16Bytes (2 + (3 + n)) ++ (be16Bytes (3 + n) ++ 0x00 :: be16Bytes n))))))

theorem buildClientHello_eq (sni : Text) :
    buildClientHello sni = front (encode sni).length ++ (encode sni ++ supportedVersionsExt) := by
  simp only [buildClientHello, append_assoc]
  rfl

theorem length_front (n : ℕ) : (front n).length = 69 := rfl

theorem number_be16Bytes {n : ℕ} (h : n < 65536) : number (be16Bytes n) = n := by
  show (0 * 256 + (UInt8.ofNat (n / 256)).toNat) * 256 + (UInt8.ofNat n).toNat = n
  rw [Nat.zero_add]
  exact (be16_be16Bytes n).trans (Nat.mod_eq_of_lt h)

variable {field : LengthField} {sni : Text} {place width stop : ℕ}

/-- A field before the host. -/
theorem isRight_front (bytes : Bytes)
    (hs : field.span (encode sni).length = (place, width, stop)) (hp : place + width ≤ 69)
    (hb : between (front (encode sni).length) place (place + width) = bytes)
    (hn : number bytes = stop - (place + width)) : field.IsRight sni := by
  rw [LengthField.IsRight, hs]
  dsimp only
  rw [buildClientHello_eq, between, take_append_of_le_length hp]
  exact (congrArg number hb).trans hn

theorem isRight_be16 (n : ℕ) (hn : n < 65536)
    (hs : field.span (encode sni).length = (place, 2, stop)) (hp : place + 2 ≤ 69)
    (hb : between (front (encode sni).length) place (place + 2) = be16Bytes n)
    (hst : n = stop - (place + 2)) : field.IsRight sni :=
  isRight_front _ hs hp hb ((number_be16Bytes hn).trans hst)

/-- A field behind the host, at `place` of the last extension. -/
theorem isRight_back (place n : ℕ) (hs : field.span (encode sni).length =
      (69 + (encode sni).length + place, width, 76 + (encode sni).length))
    (hn : number (between supportedVersionsExt place (place + width)) = n) :
    field.IsRight sni ↔ n = 7 - (place + width) := by
  have hd : (buildClientHello sni).drop (69 + (encode sni).length) = supportedVersionsExt := by
    rw [buildClientHello_eq, ← append_assoc]
    exact drop_left' (by rw [length_append, length_front])
  rw [LengthField.IsRight, hs]
  dsimp only
  rw [Nat.add_assoc _ place, ← between_drop, hd]
  omega

theorem isRight_handshake {sni : Text} (hf : 71 + (encode sni).length < 65536) :
    LengthField.IsRight .handshake sni := by
  refine isRight_front (0 :: be16Bytes (67 + (encode sni).length)) rfl (by decide) ?_ ?_
  · have hb : 2 + 32 + 1 + 12 + 2 + 2 + (4 + (2 + (3 + (encode sni).length)) + 7) =
        67 + (encode sni).length := by omega
    have hh : (67 + (encode sni).length) / 65536 = 0 := Nat.div_eq_of_lt (by omega)
    rw [← hb] at hh ⊢
    refine Eq.trans (rfl : _ = UInt8.ofNat (_ / 65536) :: be16Bytes _) ?_
    rw [hh]
    rfl
  · have hz (bytes : Bytes) : number (0 :: bytes) = number bytes := rfl
    rw [hz, number_be16Bytes (by omega)]
    omega

/-- **The lengths of the probe.** Those of `supported_versions` and of the list in it are right for
no host, all others and the host itself are for every host that fits. -/
theorem buildClientHello_lengths (sni : Text) (hf : 71 + (encode sni).length < 65536) :
    (¬∀ field : LengthField, field.IsRight sni) ∧ (∀ field : LengthField,
        field.IsRight sni ↔ field ≠ .supportedVersions ∧ field ≠ .versionList) ∧
      extractTlsSni (buildClientHello sni) = .ok (some sni) := by
  have hv : ¬LengthField.IsRight .supportedVersions sni := by
    rw [isRight_back 2 5 (by rw [LengthField.span, Nat.add_right_comm]) rfl]
    decide
  have hl : ¬LengthField.IsRight .versionList sni := by
    rw [isRight_back 4 4 (by rw [LengthField.span, Nat.add_right_comm]) rfl]
    decide
  refine ⟨fun h => hl (h _), fun field => ?_, ?_⟩
  · cases field with
    | record =>
      exact iff_of_true (isRight_be16 (4 + (2 + 32 + 1 + 12 + 2 + 2 + (4 + (2 + (3 + _)) + 7)))
        (by omega) rfl (by decide) rfl (by omega)) (by decide)
    | handshake => exact iff_of_true (isRight_handshake hf) (by decide)
    | sessionId => exact iff_of_true (isRight_front [0] rfl (by decide) rfl rfl) (by decide)
    | cipherSuites =>
      exact iff_of_true (isRight_front [0x00, 0x0a] rfl (by decide) rfl rfl) (by decide)
    | compression => exact iff_of_true (isRight_front [0x01] rfl (by decide) rfl rfl) (by decide)
    | extensions =>
      exact iff_of_true (isRight_be16 (4 + (2 + (3 + _)) + 7) (by omega) rfl (by decide) rfl
        (by omega)) (by decide)
    | serverName =>
      exact iff_of_true (isRight_be16 (2 + (3 + _)) (by omega) rfl (by decide) rfl (by omega))
        (by decide)
    | nameList =>
      exact iff_of_true (isRight_be16 (3 + _) (by omega) rfl (by decide) rfl (by omega))
        (by decide)
    | hostName =>
      exact iff_of_true (isRight_be16 _ (by omega) rfl (by decide) rfl (by omega)) (by decide)
    | supportedVersions => exact iff_of_false hv (by decide)
    | versionList => exact iff_of_false hl (by decide)
  · rw [← hello_bytes]
    refine (hello sni).extract ?_
    rw [hello_bytes, length_buildClientHello]
    omega

theorem buildClientHello_lengths_host :
    71 + (encode "a.b".toList).length < 65536 ∧
      extractTlsSni (buildClientHello "a.b".toList) = .ok (some "a.b".toList) :=
  ⟨by decide, (buildClientHello_lengths "a.b".toList (by decide)).2.2⟩

/-- The extension says five bytes and has three. -/
theorem supportedVersions_wrong :
    number (between (buildClientHello "a.b".toList) 74 76) = 5 ∧
      ¬∀ field : LengthField, field.IsRight "a.b".toList := by
  refine ⟨by decide +kernel, fun h => ?_⟩
  exact absurd ((isRight_back 2 5 rfl rfl).1 (h .supportedVersions)) (by decide)

end BalanSir.Daemon.L2Probe
