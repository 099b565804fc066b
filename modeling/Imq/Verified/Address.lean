import Imq.HostAndPort
import Imq.Verified.Numeral

/-! # Addresses as text

What `HostAndPort::FromString` makes of a text, by its first colon, and when it
gives back an address that `ToString` has printed.

* `fromString_of_colon`, `fromString_of_no_colon` — the two cases;
* `fromString_toString_iff` — the addresses that survive the way through text;
* `accepts_only_addresses_iff` — the texts on which `FromString` keeps to what is
  an address.
-/

namespace Imq

theorem Cpp.find_append_cons {s t : List Char} {c : Char} (h : c ∉ s) :
    find (String.ofList (s ++ c :: t)) c = s.length := by
  unfold find
  rw [String.toList_ofList, List.findIdx?_append]
  have hnone : List.findIdx? (· == c) s = none := by
    rw [List.findIdx?_eq_none_iff]
    intro x hx
    rw [beq_eq_false_iff_ne]
    exact fun he => h (he ▸ hx)
  simp [hnone, List.findIdx?_cons]

theorem Cpp.find_of_notMem {s : String} {c : Char} (h : c ∉ s.toList) : find s c = npos := by
  have hnone : s.toList.findIdx? (· == c) = none := by
    rw [List.findIdx?_eq_none_iff]
    intro x hx
    rw [beq_eq_false_iff_ne]
    exact fun he => h (he ▸ hx)
  simp [find, hnone]

namespace HostAndPort

theorem fromString_of_substr {s host port : String}
    (hhost : Cpp.substr s 0 (UInt32.ofNat (Cpp.find s ':')).toNat = .ok host)
    (hport : Cpp.substr s (UInt32.ofNat (Cpp.find s ':') + 1).toNat = .ok port) :
    fromString s =
      (Cpp.stoi port).map fun v => { host := host, port := UInt32.ofInt v } := by
  show (do
    let host ← Cpp.substr s 0 (UInt32.ofNat (Cpp.find s ':')).toNat
    let port ← Cpp.stoi (← Cpp.substr s (UInt32.ofNat (Cpp.find s ':') + 1).toNat)
    return ({ host := host, port := UInt32.ofInt port } : HostAndPort)) = _
  rw [hhost, hport]
  simp only [bind, Except.bind, pure, Except.pure]
  cases Cpp.stoi port <;> rfl

/-- A text with a colon is cut at the first one, as long as the index of the
    colon and its successor fit the `unsigned` it is kept in. -/
theorem fromString_of_colon {s : String} {front back : List Char}
    (hs : s.toList = front ++ ':' :: back) (first : ':' ∉ front)
    (short : front.length < 4294967295) (fits : back.length ≤ Cpp.npos) :
    fromString s = (Cpp.stoi (String.ofList back)).map fun v =>
      { host := String.ofList front, port := UInt32.ofInt v } := by
  have hfind : Cpp.find s ':' = front.length := by
    rw [← String.ofList_toList (s := s), hs, Cpp.find_append_cons first]
  have hidx : (UInt32.ofNat front.length).toNat = front.length := by
    rw [UInt32.toNat_ofNat']
    omega
  have hnext : (UInt32.ofNat front.length + 1).toNat = front.length + 1 := by
    rw [UInt32.toNat_add, hidx]
    simp only [UInt32.toNat_one]
    omega
  have hsize : s.length = front.length + 1 + back.length := by
    rw [← String.length_toList, hs]
    simp
    omega
  apply fromString_of_substr
  · rw [hfind, hidx, Cpp.substr, if_neg (by omega), hs]
    simp
  · have hdrop : (front ++ ':' :: back).drop (front.length + 1) = back := by
      simp [List.drop_append]
    rw [hfind, hnext, Cpp.substr, if_neg (by omega), hs, hdrop, List.take_of_length_le fits]

/-- Without a colon the index is `npos`, whose successor is 0 in an `unsigned`:
    the whole text is the host, and the port is read from it too. -/
theorem fromString_of_no_colon {s : String} (h : ':' ∉ s.toList) (short : s.length < 4294967295) :
    fromString s = (Cpp.stoi s).map fun v => { host := s, port := UInt32.ofInt v } := by
  have hlen : s.toList.length = s.length := String.length_toList
  have hidx : (UInt32.ofNat Cpp.npos).toNat = 4294967295 := by decide
  have hnext : (UInt32.ofNat Cpp.npos + 1).toNat = 0 := by decide
  apply fromString_of_substr
  · rw [Cpp.find_of_notMem h, hidx, Cpp.substr, if_neg (by omega), List.drop_zero,
      List.take_of_length_le (by omega), String.ofList_toList]
  · have hnpos : Cpp.npos = 18446744073709551615 := rfl
    rw [Cpp.find_of_notMem h, hnext, Cpp.substr, if_neg (by omega), List.drop_zero,
      List.take_of_length_le (by omega), String.ofList_toList]

theorem toList_toString (node : HostAndPort) :
    node.toString.toList = node.host.toList ++ ':' :: (Cpp.toString node.port.toNat).toList := by
  simp [toString, String.toList_append]

theorem length_toList_port (node : HostAndPort) :
    (Cpp.toString node.port.toNat).toList.length ≤ 10 := by
  have hlt := node.port.toNat_lt
  rw [Cpp.toList_toString]
  exact (Nat.length_toDigits_le_iff (by omega) (by omega)).mpr (by omega)

theorem ofInt_toNat (port : UInt32) : UInt32.ofInt (port.toNat : Int) = port := by
  apply UInt32.toNat_inj.mp
  have hlt := port.toNat_lt
  simp only [UInt32.ofInt, UInt32.toNat_ofNat']
  omega

/-- Addresses that survive the way through text. -/
structure Sendable (node : HostAndPort) : Prop where
  noColon : ':' ∉ node.host.toList
  short : node.host.length < 4294967295
  port : node.port.toNat ≤ 2147483647

instance (node : HostAndPort) : Decidable node.Sendable :=
  decidable_of_iff
    (':' ∉ node.host.toList ∧ node.host.length < 4294967295 ∧ node.port.toNat ≤ 2147483647)
    ⟨fun h => ⟨h.1, h.2.1, h.2.2⟩, fun h => ⟨h.noColon, h.short, h.port⟩⟩

/-- Without a colon in the host, only the port decides. -/
theorem fromString_toString_of_noColon {node : HostAndPort} (noColon : ':' ∉ node.host.toList)
    (short : node.host.length < 4294967295) :
    fromString node.toString =
      if 2147483647 < node.port.toNat then .error (.outOfRange "stoi") else .ok node := by
  have hlen : node.host.toList.length = node.host.length := String.length_toList
  have hdigits := node.length_toList_port
  have hnpos : Cpp.npos = 18446744073709551615 := rfl
  rw [fromString_of_colon (toList_toString node) noColon (by omega) (by omega)]
  simp only [String.ofList_toList, Cpp.stoi_toString_eq]
  split
  · rfl
  · simp [Except.map, ofInt_toNat]

theorem fromString_toString {node : HostAndPort} (h : node.Sendable) :
    fromString node.toString = .ok node := by
  have hport := h.port
  rw [fromString_toString_of_noColon h.noColon h.short, if_neg (by omega)]

/-- With a colon in the host, the host that is read back ends before it. -/
theorem fromString_toString_of_colon {node read : HostAndPort} (colon : ':' ∈ node.host.toList)
    (short : node.host.length < 4294967295) (h : fromString node.toString = .ok read) :
    read.host.length < node.host.length := by
  obtain ⟨front, mid, hsplit, first⟩ := List.eq_append_cons_of_mem colon
  have hlen : node.host.length = front.length + (mid.length + 1) := by
    rw [← String.length_toList, hsplit]
    simp
  have hdigits := node.length_toList_port
  have hnpos : Cpp.npos = 18446744073709551615 := rfl
  have htext : node.toString.toList =
      front ++ ':' :: (mid ++ ':' :: (Cpp.toString node.port.toNat).toList) := by
    rw [toList_toString, hsplit]
    simp
  have hback : (mid ++ ':' :: (Cpp.toString node.port.toNat).toList).length ≤ Cpp.npos := by
    rw [List.length_append, List.length_cons]
    omega
  rw [fromString_of_colon htext first (by omega) hback] at h
  cases hport : Cpp.stoi (String.ofList (mid ++ ':' :: (Cpp.toString node.port.toNat).toList)) with
  | error e =>
    rw [hport] at h
    cases h
  | ok v =>
    rw [hport] at h
    cases h
    rw [String.length_ofList]
    omega

/-- The addresses that the way through text gives back are those without a colon
    in the host and with a port that fits an `int`. -/
theorem fromString_toString_iff (node : HostAndPort) (short : node.host.length < 4294967295) :
    fromString node.toString = .ok node ↔
      ':' ∉ node.host.toList ∧ node.port.toNat ≤ 2147483647 := by
  by_cases colon : ':' ∈ node.host.toList
  · have hne : fromString node.toString ≠ .ok node := by
      intro h
      have hlt := fromString_toString_of_colon colon short h
      omega
    simp [colon, hne]
  · rw [fromString_toString_of_noColon colon short]
    by_cases hport : 2147483647 < node.port.toNat
    · simp [hport, colon]
    · simp [hport, colon]
      omega

theorem fromString_toString_localhost :
    fromString (toString ⟨"localhost", 8080⟩) = .ok ⟨"localhost", 8080⟩ ↔
      ':' ∉ "localhost".toList ∧ (8080 : UInt32).toNat ≤ 2147483647 :=
  fromString_toString_iff ⟨"localhost", 8080⟩ (by decide)

/-! ## What `FromString` accepts -/

/-- A host without a colon, a colon, and decimal digits. -/
def IsAddress (s : String) : Prop :=
  ∃ host digits, s.toList = host ++ ':' :: digits ∧ ':' ∉ host ∧ digits ≠ [] ∧
    ∀ c ∈ digits, c.isDigit = true

/-- The text in which `FromString` looks for the port: what follows the first
    colon, or the whole text if there is none. -/
def portText (s : String) : List Char :=
  if ':' ∈ s.toList then (s.toList.dropWhile (· != ':')).tail else s.toList

theorem portText_of_colon {s : String} {front back : List Char}
    (hs : s.toList = front ++ ':' :: back) (first : ':' ∉ front) : portText s = back := by
  have hfront : ∀ c ∈ front, (c != ':') = true := by
    intro c hc
    have hne : c ≠ ':' := fun he => first (he ▸ hc)
    simp [hne]
  rw [portText, hs, if_pos (by simp), List.dropWhile_append_of_pos hfront]
  simp

/-- `FromString` returns exactly if `stoi` reads a number where it looks for the
    port. -/
theorem fromString_eq_ok_iff (s : String) (short : s.length < 4294967295) :
    (∃ node, fromString s = .ok node) ↔ ∃ value, Cpp.Numeral (portText s) value := by
  have hmap : ∀ (t : String) (host : String),
      (∃ node, (Cpp.stoi t).map (fun v => ({ host := host, port := UInt32.ofInt v } : HostAndPort)) =
        .ok node) ↔ ∃ value, Cpp.Numeral t.toList value := by
    intro t host
    simp only [← Cpp.stoi_eq_ok_iff]
    cases Cpp.stoi t <;> simp [Except.map]
  have hlen : s.toList.length = s.length := String.length_toList
  by_cases colon : ':' ∈ s.toList
  · obtain ⟨front, back, hsplit, first⟩ := List.eq_append_cons_of_mem colon
    have hparts : front.length + (back.length + 1) = s.length := by
      rw [← hlen, hsplit]
      simp
    have hnpos : Cpp.npos = 18446744073709551615 := rfl
    rw [fromString_of_colon hsplit first (by omega) (by omega), hmap,
      portText_of_colon hsplit first, String.toList_ofList]
  · rw [fromString_of_no_colon colon short, hmap, portText, if_neg colon]

/-- Every text that `FromString` accepts is an address, exactly if the text is
    one or no number stands where `FromString` looks for the port. -/
theorem accepts_only_addresses_iff (s : String) (short : s.length < 4294967295) :
    ((∃ node, fromString s = .ok node) → IsAddress s) ↔
      IsAddress s ∨ ¬ ∃ value, Cpp.Numeral (portText s) value := by
  rw [fromString_eq_ok_iff s short]
  by_cases haddress : IsAddress s
  · simp [haddress]
  · simp [haddress]

theorem accepts_only_addresses_localhost :
    ((∃ node, fromString "localhost:8080" = .ok node) → IsAddress "localhost:8080") ↔
      IsAddress "localhost:8080" ∨ ¬ ∃ value, Cpp.Numeral (portText "localhost:8080") value :=
  accepts_only_addresses_iff "localhost:8080" (by decide)

/-- A number without a colon is taken for a host and its port. -/
theorem accepts_number : fromString "12" = .ok ⟨"12", 12⟩ ∧ ¬ IsAddress "12" := by
  have hnone : ':' ∉ "12".toList := by simp
  constructor
  · rfl
  · rintro ⟨host, digits, hs, -⟩
    rw [hs] at hnone
    simp at hnone

end HostAndPort

end Imq
