import ThinrAgent.Installer.InteractiveSetup
import ThinrAgent.Utils.DeviceIdGenerator

/-!
# `ThinrAgent.Proofs.DeviceId`: what a proposed identifier looks like

`generate_valid` is about every host name, every list of interfaces and every time: the identifier
has 1 to 32 characters of the allowed ones, and the setup takes it as it is. An identifier that is
made of an address ends in the last six digits of it (`suffix_generate`), so `devices_differ` says
that two devices with the same identifier have the same last three bytes.
-/

set_option autoImplicit false

namespace ThinrAgent

namespace DeviceIdGenerator

variable {hostname : Option (List Char)} {interfaces : Option (List NetInterface)} {now : Int64}
  {host mac : List Char}

/-! ### The parts -/

/-- A time has at most twenty characters, its sign included. -/
theorem length_timeText (now : Int64) : (timeText now).length ≤ 20 := by
  have hlow := now.le_toInt
  have hhigh := now.toInt_lt
  have hdigits : (Nat.toDigits 10 now.toInt.natAbs).length ≤ 19 := by
    rw [Nat.length_toDigits_le_iff (by decide) (by decide)]
    omega
  unfold timeText
  split
  · rw [List.length_cons]
    omega
  · omega

/-- A time is written in characters an identifier may have. -/
theorem isIdChar_timeText {c : Char} (h : c ∈ timeText now) : isIdChar c = true := by
  have hdigit {c : Char} (hc : c ∈ Nat.toDigits 10 now.toInt.natAbs) : isIdChar c = true := by
    have := Nat.isDigit_of_mem_toDigits (by decide) (by decide) hc
    simp [isIdChar, Char.isAlphanum, this]
  unfold timeText at h
  split at h
  · rcases List.mem_cons.mp h with rfl | h
    · decide
    · exact hdigit h
  · exact hdigit h

/-- The digits of a byte belong to an identifier, are no separator of an address, and are in lower
case. -/
theorem hexPair_digits : ∀ n < 16, isIdChar (Nat.digitChar n) = true ∧
    Nat.digitChar n ≠ ':' ∧ Nat.digitChar n ≠ '-' ∧
    (Nat.digitChar n).toLower = Nat.digitChar n := by
  decide

/-- A byte is written in hexadecimal digits and nothing else. -/
theorem mem_hexPair {b : UInt8} {c : Char} (h : c ∈ hexPair b) : ∃ n < 16, c = Nat.digitChar n := by
  have hb := b.toNat_lt
  rcases List.mem_cons.mp h with rfl | h
  · exact ⟨b.toNat / 16, by omega, rfl⟩
  · exact ⟨b.toNat % 16, by omega, List.mem_singleton.mp h⟩

/-- The two digits of a byte determine it. -/
theorem hexPair_inj {a b : UInt8} (h : hexPair a = hexPair b) : a = b := by
  have hread (c : UInt8) : stoiByte ((hexPair c).map asciiByte) = .ok c := by
    have hc := stoiByte_digits _ c.toNat_lt
    rwa [UInt8.ofNat_toNat] at hc
  -- The digits are those that the token is stored in, which are read back.
  have hbytes := hread a
  rw [h, hread b] at hbytes
  exact (Except.ok.inj hbytes).symm

/-- The digits of an address determine the address, since each byte has two. -/
theorem flatMap_hexPair_inj {xs ys : List UInt8} (h : xs.flatMap hexPair = ys.flatMap hexPair) :
    xs = ys := by
  induction xs generalizing ys with
  | nil =>
    cases ys with
    | nil => rfl
    | cons y ys => cases h
  | cons x xs ih =>
    cases ys with
    | nil => cases h
    | cons y ys =>
      rw [List.flatMap_cons, List.flatMap_cons] at h
      obtain ⟨hpair, hrest⟩ := List.append_inj h rfl
      rw [hexPair_inj hpair, ih hrest]

/-- The digits of an address are characters an identifier may have. -/
theorem isIdChar_hexPair {addr : List UInt8} {c : Char} (h : c ∈ addr.flatMap hexPair) :
    isIdChar c = true := by
  obtain ⟨b, -, hc⟩ := List.mem_flatMap.mp h
  obtain ⟨n, hn, rfl⟩ := mem_hexPair hc
  exact (hexPair_digits n hn).1

/-- The colons are taken out of each part of an address for itself. -/
theorem formatMacCompact_append (xs ys : List Char) :
    formatMacCompact (xs ++ ys) = formatMacCompact xs ++ formatMacCompact ys := by
  unfold formatMacCompact
  rw [List.filter_append, List.map_append]

/-- The compact form of an address is its digits, without the colons. -/
theorem formatMacCompact_macText (addr : List UInt8) :
    formatMacCompact (macText addr) = addr.flatMap hexPair := by
  have hpair (b : UInt8) : formatMacCompact (hexPair b) = hexPair b := by
    have hb := b.toNat_lt
    obtain ⟨-, hcolon, hdash, hlower⟩ := hexPair_digits (b.toNat / 16) (by omega)
    obtain ⟨-, hcolon', hdash', hlower'⟩ := hexPair_digits (b.toNat % 16) (by omega)
    simp [formatMacCompact, hexPair, hcolon, hdash, hlower, hcolon', hdash', hlower']
  induction addr with
  | nil => rfl
  | cons a rest ih =>
    cases rest with
    | nil =>
      rw [macText, List.map_cons, List.map_nil, List.intercalate_singleton, hpair]
      simp
    | cons b rest =>
      have hsplit : macText (a :: b :: rest) = hexPair a ++ ([':'] ++ macText (b :: rest)) := by
        rw [macText, macText, List.map_cons, List.map_cons, List.intercalate_cons_cons,
          List.append_assoc]
      have hcolon : formatMacCompact [':'] = [] := by decide
      rw [hsplit, formatMacCompact_append, formatMacCompact_append, hpair, hcolon, ih]
      rfl

/-- The address that is taken is one of six bytes. -/
theorem firstHardware_length {i : NetInterface} (h : firstHardware interfaces = some i) :
    i.addr.length = 6 := by
  obtain ⟨list, -, hfind⟩ := Option.bind_eq_some_iff.mp h
  have hhard := List.find?_some hfind
  simp only [NetInterface.isHardware, Bool.and_eq_true, decide_eq_true_eq] at hhard
  exact hhard.1.2

/-- An address has two digits for each of its bytes. -/
theorem length_flatMap_hexPair (addr : List UInt8) :
    (addr.flatMap hexPair).length = 2 * addr.length := by
  induction addr with
  | nil => rfl
  | cons a rest ih =>
    rw [List.flatMap_cons, List.length_append, ih, List.length_cons]
    show 2 + 2 * rest.length = _
    omega

/-! ### The join -/

/-- The host name is cut so that the identifier has at most 32 characters. -/
theorem length_joinId (host mac : List Char) : (joinId host mac).length ≤ 32 := by
  simp only [joinId]
  split
  · rw [List.length_append, List.length_take, List.length_cons, List.length_drop]
    omega
  · omega

/-- An identifier is never empty, not even with an empty host name and no address. -/
theorem joinId_ne_nil (host mac : List Char) : joinId host mac ≠ [] := by
  simp only [joinId]
  split
  · simp
  · simp

/-- The last six characters of the address are kept at the end of the identifier, whatever is cut in
front. -/
theorem suffix_joinId (host : List Char) (h : 6 ≤ mac.length) :
    mac.drop (mac.length - 6) <:+ joinId host mac := by
  simp only [joinId]
  split
  · rw [Nat.min_eq_right h]
    exact (List.suffix_cons _ _).trans (List.suffix_append _ _)
  · exact (List.drop_suffix _ _).trans ((List.suffix_cons _ _).trans (List.suffix_append _ _))

/-! ### The identifier -/

/-- With an address the identifier is made of it, and the time plays no part. -/
theorem generate_eq {i : NetInterface} (h : firstHardware interfaces = some i) :
    generate hostname interfaces now =
      (joinId (if (getHostnamePrefix hostname).isEmpty then "device".toList
        else getHostnamePrefix hostname) (i.addr.flatMap hexPair)).map
          fun c => if isIdChar c then c else '_' := by
  have hlength := firstHardware_length h
  have hmac : getFirstHardwareMac interfaces = macText i.addr := by
    rw [getFirstHardwareMac, h]
  have hne : (macText i.addr).isEmpty = false := by
    cases hempty : macText i.addr with
    | cons c cs => rfl
    | nil =>
      have hdigits := formatMacCompact_macText i.addr
      rw [hempty] at hdigits
      have hzero := length_flatMap_hexPair i.addr
      rw [← hdigits, hlength] at hzero
      cases hzero
  simp only [generate, hmac, hne, Bool.and_false, Bool.false_eq_true, if_false,
    formatMacCompact_macText]

/-- The last six digits of the address are the last characters of the identifier. -/
theorem suffix_generate {i : NetInterface} (h : firstHardware interfaces = some i) :
    (i.addr.drop 3).flatMap hexPair <:+ generate hostname interfaces now := by
  have hlength := firstHardware_length h
  have htwelve := length_flatMap_hexPair i.addr
  have hdrop : (i.addr.flatMap hexPair).drop ((i.addr.flatMap hexPair).length - 6) =
      (i.addr.drop 3).flatMap hexPair := by
    have hsplit : i.addr.flatMap hexPair =
        (i.addr.take 3).flatMap hexPair ++ (i.addr.drop 3).flatMap hexPair := by
      rw [← List.flatMap_append, List.take_append_drop]
    have hsix : (i.addr.flatMap hexPair).length - 6 =
        ((i.addr.take 3).flatMap hexPair).length := by
      rw [length_flatMap_hexPair (i.addr.take 3), List.length_take]
      omega
    rw [hsix, hsplit, List.drop_left]
  have hkeep : ((i.addr.drop 3).flatMap hexPair).map (fun c => if isIdChar c then c else '_') =
      (i.addr.drop 3).flatMap hexPair := by
    conv_rhs => rw [← List.map_id ((i.addr.drop 3).flatMap hexPair)]
    exact List.map_congr_left fun c hc => if_pos (isIdChar_hexPair hc)
  rw [generate_eq h, ← hkeep, ← hdrop]
  exact (suffix_joinId _ (by omega)).map _

/-- Every proposed identifier has 1 to 32 characters of the allowed ones, whatever the system says
about its name and its interfaces, and the clean-up of the setup keeps it as it is. -/
theorem generate_valid (hostname : Option (List Char)) (interfaces : Option (List NetInterface))
    (now : Int64) :
    generate hostname interfaces now ≠ [] ∧ (generate hostname interfaces now).length ≤ 32 ∧
      (∀ c ∈ generate hostname interfaces now, isIdChar c = true) ∧
      ((generate hostname interfaces now).take 32).map InteractiveSetup.cleanIdChar =
        generate hostname interfaces now := by
  have hparts : generate hostname interfaces now ≠ [] ∧
      (generate hostname interfaces now).length ≤ 32 ∧
      ∀ c ∈ generate hostname interfaces now, isIdChar c = true := by
    simp only [generate]
    -- Without a host name and an address there is the time. Otherwise every character is replaced
    -- that is not allowed, so only the length is left.
    split
    · refine ⟨by simp, ?_, ?_⟩
      · have := length_timeText now
        rw [List.length_append]
        show 6 + (timeText now).length ≤ 32
        omega
      · intro c hc
        rcases List.mem_append.mp hc with hc | hc
        · have hthinr : "thinr_".toList.all isIdChar = true := by decide
          exact List.all_eq_true.mp hthinr c hc
        · exact isIdChar_timeText hc
    · refine ⟨?_, ?_, ?_⟩
      · rw [Ne, List.map_eq_nil_iff]
        exact joinId_ne_nil _ _
      · rw [List.length_map]
        exact length_joinId _ _
      · intro c hc
        obtain ⟨d, -, rfl⟩ := List.mem_map.mp hc
        split
        · assumption
        · decide
  -- The clean-up of the setup cuts at 32 characters and keeps the allowed ones.
  obtain ⟨hne, hlength, hchars⟩ := hparts
  refine ⟨hne, hlength, hchars, ?_⟩
  rw [List.take_of_length_le hlength]
  conv_rhs => rw [← List.map_id (generate hostname interfaces now)]
  refine List.map_congr_left fun c hc => ?_
  have hchar := hchars c hc
  have hclean : (c.isAlphanum || c = '-' || c = '_') = true := by
    simp only [isIdChar, Bool.or_eq_true, decide_eq_true_eq] at hchar ⊢
    tauto
  rw [InteractiveSetup.cleanIdChar, if_pos hclean]
  rfl

/-- Two devices that find an address and propose the same identifier have the same last three bytes
in it, whatever they are called and whenever they ask. One device proposes the same every time. -/
theorem devices_differ {hostname₁ hostname₂ : Option (List Char)}
    {interfaces₁ interfaces₂ : Option (List NetInterface)} {now₁ now₂ : Int64}
    {i₁ i₂ : NetInterface} (h₁ : firstHardware interfaces₁ = some i₁)
    (h₂ : firstHardware interfaces₂ = some i₂) :
    (generate hostname₁ interfaces₁ now₁ = generate hostname₂ interfaces₂ now₂ →
      i₁.addr.drop 3 = i₂.addr.drop 3) ∧
    generate hostname₁ interfaces₁ now₁ = generate hostname₁ interfaces₁ now₂ := by
  refine ⟨fun heq => ?_, by rw [generate_eq h₁, generate_eq h₁]⟩
  have hsuffix₁ : (i₁.addr.drop 3).flatMap hexPair <:+ generate hostname₂ interfaces₂ now₂ :=
    heq ▸ suffix_generate h₁
  have hsuffix₂ : (i₂.addr.drop 3).flatMap hexPair <:+ generate hostname₂ interfaces₂ now₂ :=
    suffix_generate h₂
  have hlength₁ := firstHardware_length h₁
  have hlength₂ := firstHardware_length h₂
  have hsame : (i₁.addr.drop 3).flatMap hexPair = (i₂.addr.drop 3).flatMap hexPair := by
    have hlen : ((i₁.addr.drop 3).flatMap hexPair).length =
        ((i₂.addr.drop 3).flatMap hexPair).length := by
      rw [length_flatMap_hexPair, length_flatMap_hexPair, List.length_drop, List.length_drop,
        hlength₁, hlength₂]
    -- Both are suffixes of one identifier, and equally long.
    exact (List.suffix_of_suffix_length_le hsuffix₁ hsuffix₂ hlen.le).eq_of_length hlen
  exact flatMap_hexPair_inj hsame

/-- A card whose address ends in the byte. -/
def sampleCard (last : UInt8) : NetInterface :=
  { name := "eth0".toList, isPacket := true, addr := [2, 66, 172, 17, 0, last] }

/-- Two devices whose addresses differ in their last byte only, by different names. -/
theorem devices_differ_sample :
    generate (some "edge-1".toList) (some [sampleCard 2]) 0 ≠
      generate (some "edge-2".toList) (some [sampleCard 3]) 0 := by
  intro heq
  have hfound (last : UInt8) (h : (sampleCard last).isHardware = true) :
      firstHardware (some [sampleCard last]) = some (sampleCard last) := by
    rw [firstHardware, Option.bind_some, List.find?_cons_of_pos h]
  have hbytes := (devices_differ (hfound 2 (by decide)) (hfound 3 (by decide))).1 heq
  revert hbytes
  decide

end DeviceIdGenerator

end ThinrAgent
