import JobFleet.Net.Address

/-!
# Printed addresses are read back

The canonical text of an address is read as that address and nothing is left over, so that
different addresses have different texts. Groups print no point, so four octets are tried on them
and given up; the closed run of zeros is put back because what is read around it tells how long it
was. No text is longer than 39 characters.
-/

namespace JobFleet.Net

/-! ## Digits -/

/-- A hexadecimal digit reads back. -/
theorem hexValue?_digitChar {d : Nat} (h : d < 16) : hexValue? d.digitChar = some d := by
  have hall : ∀ a : Fin 16, hexValue? a.val.digitChar = some a.val := by decide
  exact hall ⟨d, h⟩

/-- Behind a text of digits alone, digits are read from what follows. -/
theorem takeDigits_append {radix : Nat} {cs rest : List Char} {ds : List Nat}
    (h : takeDigits radix cs = (ds, [])) :
    takeDigits radix (cs ++ rest) =
      (ds ++ (takeDigits radix rest).1, (takeDigits radix rest).2) := by
  induction cs generalizing ds with
  | nil =>
      simp only [takeDigits, Prod.mk.injEq, and_true] at h
      subst h
      rfl
  | cons c cs ih =>
      simp only [List.cons_append, takeDigits] at h ⊢
      split at h
      · rename_i v hv
        split at h
        · rename_i hlt
          simp only [Prod.mk.injEq] at h
          obtain ⟨rfl, hrest⟩ := h
          rw [if_pos hlt, ih (Prod.ext rfl hrest)]
          rfl
        · cases h
      · cases h

/-- The digits of a number are read as digits that write it, of which the first is zero only for
zero itself. -/
theorem takeDigits_toDigits (radix : Nat) (htwo : 1 < radix) (hmost : radix ≤ 16) (n : Nat) :
    ∃ ds, takeDigits radix (Nat.toDigits radix n) = (ds, []) ∧ valueOf radix ds = n ∧
      ds.length = (Nat.toDigits radix n).length ∧ (ds.head? = some 0 → n = 0) := by
  have hsingle : ∀ d, d < radix → takeDigits radix [d.digitChar] = ([d], []) := by
    intro d hd
    simp only [takeDigits, hexValue?_digitChar (Nat.lt_of_lt_of_le hd hmost), if_pos hd]
  induction n using Nat.strongRecOn with
  | ind n ih =>
      rw [Nat.toDigits_eq_if htwo]
      split
      · rename_i hlt
        exact ⟨[n], hsingle n hlt, by simp [valueOf], rfl, by simp⟩
      · rename_i hge
        have hquotient : 0 < n / radix := Nat.div_pos (Nat.le_of_not_lt hge) (by omega)
        obtain ⟨ds, htake, hvalue, hlength, hzero⟩ :=
          ih (n / radix) (Nat.div_lt_self (by omega) htwo)
        refine ⟨ds ++ [n % radix], ?_, ?_, ?_, ?_⟩
        · rw [takeDigits_append htake, hsingle _ (Nat.mod_lt n (by omega))]
        · rw [valueOf, List.foldl_append, ← valueOf, hvalue]
          exact Nat.div_add_mod' n radix
        · rw [List.length_append, List.length_append, hlength]
          rfl
        · intro hhead
          cases ds with
          | nil =>
              have hpositive : 0 < (Nat.toDigits radix (n / radix)).length :=
                Nat.length_toDigits_pos
              rw [← hlength] at hpositive
              cases hpositive
          | cons d ds =>
              have hnone := hzero hhead
              omega

/-- Every printed digit is the character of a digit. -/
theorem mem_toDigits {radix n : Nat} {c : Char} (htwo : 1 < radix)
    (h : c ∈ Nat.toDigits radix n) : ∃ d < radix, c = d.digitChar := by
  induction n using Nat.strongRecOn with
  | ind n ih =>
      rw [Nat.toDigits_eq_if htwo] at h
      split at h
      · rename_i hlt
        exact ⟨n, hlt, List.mem_singleton.mp h⟩
      · rename_i hge
        rcases List.mem_append.mp h with hfront | hlast
        · exact ih (n / radix) (Nat.div_lt_self (by omega) htwo) hfront
        · exact ⟨n % radix, Nat.mod_lt n (by omega), List.mem_singleton.mp hlast⟩

/-- No point is printed in hexadecimal. -/
theorem point_not_mem_toDigits (n : Nat) : '.' ∉ Nat.toDigits 16 n := by
  intro h
  obtain ⟨d, hd, he⟩ := mem_toDigits (by decide) h
  have hall : ∀ a : Fin 16, '.' ≠ a.val.digitChar := by decide
  exact hall ⟨d, hd⟩ he

/-! ## Octets -/

/-- An octet has three digits at the most. -/
theorem length_decimalDigits_le (a : UInt8) : (decimalDigits a.toNat).length ≤ 3 :=
  (Nat.length_toDigits_le_iff (by decide) (by decide)).mpr
    (Nat.lt_of_lt_of_le a.toNat_lt (by decide))

/-- A printed octet is read back in front of anything but a digit. -/
theorem readOctet_decimalDigits (a : UInt8) {rest : List Char}
    (hrest : takeDigits 10 rest = ([], rest)) :
    readOctet (decimalDigits a.toNat ++ rest) = some (a, rest) := by
  obtain ⟨ds, htake, hvalue, hlength, hzero⟩ :=
    takeDigits_toDigits 10 (by decide) (by decide) a.toNat
  have hmost : ds.length ≤ 3 := hlength ▸ length_decimalDigits_le a
  have hsome : 0 < ds.length := hlength ▸ Nat.length_toDigits_pos
  have hlt : a.toNat < 256 := a.toNat_lt
  have hlead : ¬ (1 < ds.length ∧ ds.head? = some 0) := by
    rintro ⟨hlong, hhead⟩
    have hone : (Nat.toDigits 10 a.toNat).length ≤ 1 := by
      rw [hzero hhead]
      decide
    omega
  have hread : takeDigits 10 (decimalDigits a.toNat ++ rest) = (ds, rest) := by
    rw [decimalDigits, takeDigits_append htake, hrest, List.append_nil]
  have hnil : ds.isEmpty = false := by
    cases ds with
    | nil => cases hsome
    | cons d ds => rfl
  unfold readOctet
  rw [hread]
  simp only [hvalue, hnil, Bool.false_eq_true, false_or, Nat.toUInt8, UInt8.ofNat_toNat]
  rw [if_neg]
  rintro (hlong | hlead' | hlarge)
  · omega
  · exact hlead hlead'
  · omega

/-- Four printed octets are read back in front of anything but a digit. -/
theorem readOctets_octetsText (a b c d : UInt8) {rest : List Char}
    (hrest : takeDigits 10 rest = ([], rest)) :
    readOctets (octetsText a b c d ++ rest) = some ((a, b, c, d), rest) := by
  have hpoint : ∀ cs : List Char, takeDigits 10 ('.' :: cs) = ([], '.' :: cs) := fun _ => rfl
  simp only [readOctets, octetsText, List.append_assoc, List.cons_append, Option.bind_eq_bind,
    readOctet_decimalDigits _ (hpoint _), readOctet_decimalDigits _ hrest, readChar, if_true,
    Option.bind_some, Option.pure_def]

/-- What follows an octet is the end of the text that it was read from. -/
theorem readOctet_suffix {cs rest : List Char} {a : UInt8} (h : readOctet cs = some (a, rest)) :
    rest <:+ cs := by
  have htake : ∀ cs : List Char, (takeDigits 10 cs).2 <:+ cs := by
    intro cs
    induction cs with
    | nil => exact List.suffix_rfl
    | cons c cs ih =>
        rw [takeDigits]
        split
        · split
          · exact ih.trans (List.suffix_cons c cs)
          · exact List.suffix_rfl
        · exact List.suffix_rfl
  simp only [readOctet] at h
  split at h
  · cases h
  · simp only [Option.some.injEq, Prod.mk.injEq] at h
    exact h.2 ▸ htake cs

/-- Four octets are not read where there is no point. -/
theorem readOctets_eq_none {cs : List Char} (h : '.' ∉ cs) : readOctets cs = none := by
  unfold readOctets
  cases hread : readOctet cs with
  | none => rfl
  | some p =>
      obtain ⟨a, rest⟩ := p
      have hrest : '.' ∉ rest := fun hmem => h ((readOctet_suffix hread).mem hmem)
      have hnone : readChar '.' rest = none := by
        cases rest with
        | nil => rfl
        | cons c rest =>
            have hne : c ≠ '.' := fun e => hrest (e ▸ List.mem_cons_self)
            exact if_neg hne
      simp only [Option.bind_eq_bind, Option.bind_some, hnone, Option.bind_none]

/-! ## Groups -/

/-- A group has four digits at the most. -/
theorem length_groupDigits_le (g : UInt16) : (Nat.toDigits 16 g.toNat).length ≤ 4 :=
  (Nat.length_toDigits_le_iff (by decide) (by decide)).mpr
    (Nat.lt_of_lt_of_le g.toNat_lt (by decide))

/-- A printed group is read back in front of anything but a digit. -/
theorem readGroup_toDigits (g : UInt16) {rest : List Char}
    (hrest : takeDigits 16 rest = ([], rest)) :
    readGroup (Nat.toDigits 16 g.toNat ++ rest) = some (g, rest) := by
  obtain ⟨ds, htake, hvalue, hlength, -⟩ :=
    takeDigits_toDigits 16 (by decide) (by decide) g.toNat
  have hmost : ds.length ≤ 4 := hlength ▸ length_groupDigits_le g
  have hsome : 0 < ds.length := hlength ▸ Nat.length_toDigits_pos
  have hread : takeDigits 16 (Nat.toDigits 16 g.toNat ++ rest) = (ds, rest) := by
    rw [takeDigits_append htake, hrest, List.append_nil]
  have hnil : ds.isEmpty = false := by
    cases ds with
    | nil => cases hsome
    | cons d ds => rfl
  unfold readGroup
  rw [hread]
  simp only [hvalue, hnil, Bool.false_eq_true, false_or, Nat.toUInt16, UInt16.ofNat_toNat]
  exact if_neg (by omega)

/-- Groups in hexadecimal, each behind a colon. -/
def colonText (gs : List UInt16) : List Char := gs.flatMap fun g => ':' :: Nat.toDigits 16 g.toNat

/-- Groups are written one after the other. -/
theorem groupsText_cons (g : UInt16) (gs : List UInt16) :
    groupsText (g :: gs) = Nat.toDigits 16 g.toNat ++ colonText gs := by
  induction gs generalizing g with
  | nil => exact (List.append_nil _).symm
  | cons h gs ih =>
      rw [groupsText, ih h]
      · rfl
      · rintro ⟨⟩

/-- Groups with colons are written without a point. -/
theorem point_not_mem_colonText (gs : List UInt16) : '.' ∉ colonText gs := by
  intro h
  obtain ⟨g, -, hg⟩ := List.mem_flatMap.mp h
  rcases List.mem_cons.mp hg with he | hmem
  · cases he
  · exact point_not_mem_toDigits _ hmem

/-- Groups are written without a point. -/
theorem point_not_mem_groupsText (gs : List UInt16) : '.' ∉ groupsText gs := by
  cases gs with
  | nil => exact List.not_mem_nil
  | cons g gs =>
      rw [groupsText_cons, List.mem_append]
      rintro (hmem | hmem)
      · exact point_not_mem_toDigits _ hmem
      · exact point_not_mem_colonText gs hmem

/-- No group is read at the front of a text. -/
def Gapped (cs : List Char) : Prop := ∀ limit, readGroups false limit cs = ([], false, cs)

theorem gapped_nil : Gapped [] := by
  intro limit
  cases limit <;> rfl

/-- A gap ends the groups before it: no group begins with a colon. -/
theorem gapped_gap (cs : List Char) : Gapped (':' :: ':' :: cs) := by
  intro limit
  cases limit with
  | zero => rfl
  | succ limit => cases limit <;> rfl

/-- Digits end where a colon begins. -/
theorem takeDigits_colonText (gs : List UInt16) {rest : List Char}
    (hrest : takeDigits 16 rest = ([], rest)) :
    takeDigits 16 (colonText gs ++ rest) = ([], colonText gs ++ rest) := by
  cases gs with
  | nil => exact hrest
  | cons g gs => rfl

section Groups

variable {rest : List Char} (hgap : Gapped rest) (hrest : takeDigits 16 rest = ([], rest))
  (hpoint : '.' ∉ rest)

include hgap hrest hpoint

/-- Printed groups that follow others are read back up to a gap or the end. -/
theorem readGroups_colonText (gs : List UInt16) {limit : Nat} (hlimit : gs.length ≤ limit) :
    readGroups false limit (colonText gs ++ rest) = (gs, false, rest) := by
  induction gs generalizing limit with
  | nil => exact hgap limit
  | cons g gs ih =>
      cases limit with
      | zero => cases hlimit
      | succ limit =>
          have hfront : colonText (g :: gs) ++ rest =
              ':' :: (Nat.toDigits 16 g.toNat ++ (colonText gs ++ rest)) := by
            simp only [colonText, List.flatMap_cons, List.cons_append, List.append_assoc]
          have hnone : readOctets (Nat.toDigits 16 g.toNat ++ (colonText gs ++ rest)) = none := by
            refine readOctets_eq_none ?_
            simp only [List.mem_append, not_or]
            exact ⟨point_not_mem_toDigits _, point_not_mem_colonText gs, hpoint⟩
          have htail := ih (Nat.le_of_succ_le_succ hlimit)
          rw [hfront, readGroups]
          simp only [Bool.false_eq_true, if_false, readChar, if_true, hnone, ite_self,
            readGroup_toDigits g (takeDigits_colonText gs hrest), htail]

/-- Printed groups at the front are read back up to a gap or the end. -/
theorem readGroups_groupsText (gs : List UInt16) {limit : Nat} (hlimit : gs.length ≤ limit)
    (hnone : gs = [] → readGroup rest = none) :
    readGroups true limit (groupsText gs ++ rest) = (gs, false, rest) := by
  cases gs with
  | nil =>
      cases limit with
      | zero => rfl
      | succ limit =>
          rw [groupsText, List.nil_append, readGroups]
          simp only [if_true, readOctets_eq_none hpoint, ite_self, hnone rfl]
  | cons g gs =>
      cases limit with
      | zero => cases hlimit
      | succ limit =>
          have hoctets : readOctets (Nat.toDigits 16 g.toNat ++ (colonText gs ++ rest)) = none := by
            refine readOctets_eq_none ?_
            simp only [List.mem_append, not_or]
            exact ⟨point_not_mem_toDigits _, point_not_mem_colonText gs, hpoint⟩
          have htail := readGroups_colonText hgap hrest hpoint gs (Nat.le_of_succ_le_succ hlimit)
          rw [groupsText_cons, List.append_assoc, readGroups]
          simp only [if_true, hoctets, ite_self,
            readGroup_toDigits g (takeDigits_colonText gs hrest), htail]

end Groups

/-! ## Runs of zeros -/

/-- The longest run is one: as many groups of zeros stand where it starts. -/
theorem longestZeroRun_le (gs : List UInt16) :
    (longestZeroRun gs).2 ≤ zeroRun (gs.drop (longestZeroRun gs).1) := by
  suffices hall : ∀ (is : List Nat) (best : Nat × Nat), best.2 ≤ zeroRun (gs.drop best.1) →
      let run := is.foldl (fun best i =>
        if best.2 < zeroRun (gs.drop i) then (i, zeroRun (gs.drop i)) else best) best
      run.2 ≤ zeroRun (gs.drop run.1) from
    hall (List.range gs.length) (0, 0) (Nat.zero_le _)
  intro is
  induction is with
  | nil => exact fun best h => h
  | cons i is ih =>
      intro best h
      refine ih _ ?_
      dsimp only
      split
      · exact Nat.le_refl _
      · exact h

/-- A part of a run of zeros is zeros. -/
theorem take_of_le_zeroRun {gs : List UInt16} {n : Nat} (h : n ≤ zeroRun gs) :
    gs.take n = List.replicate n 0 := by
  induction gs generalizing n with
  | nil =>
      have hn : n = 0 := Nat.le_zero.mp h
      rw [hn]
      rfl
  | cons g gs ih =>
      cases n with
      | zero => rfl
      | succ n =>
          unfold zeroRun at h
          rw [List.takeWhile_cons] at h
          split at h
          · rename_i hg
            rw [List.take_succ_cons, ih (Nat.le_of_succ_le_succ h), of_decide_eq_true hg]
            rfl
          · cases h

/-- The groups are those before the longest run, its zeros, and those behind it. -/
theorem around_longestZeroRun (gs : List UInt16) :
    gs.take (longestZeroRun gs).1 ++ (List.replicate (longestZeroRun gs).2 0 ++
      gs.drop ((longestZeroRun gs).1 + (longestZeroRun gs).2)) = gs := by
  rw [← take_of_le_zeroRun (longestZeroRun_le gs), ← List.drop_drop, List.take_append_drop,
    List.take_append_drop]

/-! ## Addresses -/

/-- Eight groups are those of their list. -/
theorem groupsOf_toList (groups : Vector UInt16 8) : groupsOf groups.toList = groups := by
  ext i hi
  simp [groupsOf]

/-- The octets of a group make the group. -/
theorem joinOctets_octetsOf (g : UInt16) : joinOctets (octetsOf g).1 (octetsOf g).2 = g := by
  have hg : g.toNat < 65536 := g.toNat_lt
  rw [← UInt16.toNat_inj]
  simp only [joinOctets, octetsOf, UInt16.toNat_add, UInt16.toNat_mul, UInt8.toNat_toUInt16,
    UInt16.toNat_toUInt8, UInt16.toNat_div, UInt16.toNat_mod, UInt16.reduceToNat]
  omega

/-- Eight groups in full are read back. -/
theorem readV6_groupsText {gs : List UInt16} (h : gs.length = 8) :
    readV6 (groupsText gs) = some (.v6 (groupsOf gs), []) := by
  have hread := readGroups_groupsText gapped_nil rfl List.not_mem_nil gs (Nat.le_of_eq h)
    fun _ => rfl
  rw [List.append_nil] at hread
  simp only [readV6, hread, if_pos h, Option.pure_def]

/-- Groups around a gap are read back with zeros in the gap. -/
theorem readV6_gap (front back : List UInt16) (h : front.length + back.length < 8) :
    readV6 (groupsText front ++ ':' :: ':' :: groupsText back) =
      some (.v6 (groupsOf (front ++
        List.replicate (8 - front.length - back.length) 0 ++ back)), []) := by
  have hpoint : '.' ∉ ':' :: ':' :: groupsText back := by
    simp only [List.mem_cons, not_or]
    exact ⟨by decide, by decide, point_not_mem_groupsText back⟩
  have hfront := readGroups_groupsText (gapped_gap (groupsText back)) rfl hpoint front
    (show front.length ≤ 8 by omega) fun _ => rfl
  have hback := readGroups_groupsText gapped_nil rfl List.not_mem_nil back
    (show back.length ≤ 7 - front.length by omega) fun _ => rfl
  rw [List.append_nil] at hback
  have hshort : front.length ≠ 8 := by omega
  simp only [readV6, hfront, if_neg hshort, Bool.false_eq_true, if_false, readChar, if_true,
    Option.bind_eq_bind, Option.bind_some, hback, Option.pure_def]

/-- The text of eight groups with a closed run of zeros is read back. -/
theorem readV6_compressedText {gs : List UInt16} (h : gs.length = 8) :
    readV6 (compressedText gs) = some (.v6 (groupsOf gs), []) := by
  unfold compressedText
  have haround := around_longestZeroRun gs
  generalize longestZeroRun gs = run at haround
  obtain ⟨start, length⟩ := run
  dsimp only at haround ⊢
  split
  · rename_i hlong
    have hlength := congrArg List.length haround
    simp only [List.length_append, List.length_replicate, h] at hlength
    have hgap : 8 - (gs.take start).length - (gs.drop (start + length)).length = length := by
      omega
    rw [readV6_gap _ _ (by omega), hgap, List.append_assoc, haround]
  · exact readV6_groupsText h

/-- Compressed groups are written without a point. -/
theorem point_not_mem_compressedText (gs : List UInt16) : '.' ∉ compressedText gs := by
  unfold compressedText
  split
  rename_i start length _
  split
  · simp only [List.mem_append, List.mem_cons, not_or]
    exact ⟨point_not_mem_groupsText _, by decide, by decide, point_not_mem_groupsText _⟩
  · exact point_not_mem_groupsText gs

/-- Behind its fixed part, an address that embeds four octets prints them. -/
def embeddedText (octets : List Char) : List Char :=
  ':' :: ':' :: 'f' :: 'f' :: 'f' :: 'f' :: ':' :: octets

/-- Four octets behind the group before them stand for two groups. -/
theorem readGroups_octetsText (a b c d : UInt8) (limit : Nat) :
    readGroups false (limit + 2) (':' :: octetsText a b c d) =
      ([joinOctets a b, joinOctets c d], true, []) := by
  have hread := readOctets_octetsText a b c d (show takeDigits 10 [] = ([], []) from rfl)
  rw [List.append_nil] at hread
  rw [readGroups]
  simp only [Bool.false_eq_true, if_false, readChar, if_true, Nat.add_one_ne_zero, hread]

/-- The text of an address that embeds four octets is read back. -/
theorem readV6_embeddedText (high low : UInt16) :
    readV6 (embeddedText (octetsText (octetsOf high).1 (octetsOf high).2 (octetsOf low).1
      (octetsOf low).2)) = some (.v6 (groupsOf [0, 0, 0, 0, 0, 0xffff, high, low]), []) := by
  have hback := readGroups_octetsText (octetsOf high).1 (octetsOf high).2 (octetsOf low).1
    (octetsOf low).2 4
  rw [joinOctets_octetsOf, joinOctets_octetsOf] at hback
  generalize octetsText (octetsOf high).1 (octetsOf high).2 (octetsOf low).1
    (octetsOf low).2 = octets at hback
  have hfront : readGroups true 8 (embeddedText octets) = ([], false, embeddedText octets) := rfl
  have hgroup : readGroups true 7 ('f' :: 'f' :: 'f' :: 'f' :: ':' :: octets) =
      (0xffff :: (readGroups false 6 (':' :: octets)).1, (readGroups false 6 (':' :: octets)).2) :=
    rfl
  rw [hback] at hgroup
  rw [readV6, hfront]
  simp only [embeddedText, readChar, List.length_nil, if_true, Bool.false_eq_true, if_false,
    Option.bind_eq_bind, Option.bind_some, Nat.sub_zero, hgroup]
  rfl

/-- The text of eight groups is read as them, with nothing left over, and not as four octets. -/
theorem readAddress_groups (groups : Vector UInt16 8) :
    readAddress (Address.v6 groups).chars = some (.v6 groups, []) := by
  have hlength : groups.toList.length = 8 := by simp
  have hgroups := groupsOf_toList groups
  unfold Address.chars
  dsimp only
  split
  · rename_i high low hlist
    rw [hlist] at hgroups
    have hread := readV6_embeddedText high low
    rw [hgroups] at hread
    exact hread
  · have hread := readV6_compressedText hlength
    rw [hgroups] at hread
    rw [readAddress, readOctets_eq_none (point_not_mem_compressedText _)]
    exact hread

/-- The text of an address is read as the address, with nothing left over. -/
theorem readAddress_chars (a : Address) : readAddress a.chars = some (a, []) := by
  cases a with
  | v4 a b c d =>
      have hread := readOctets_octetsText a b c d (show takeDigits 10 [] = ([], []) from rfl)
      rw [List.append_nil] at hread
      simp only [Address.chars, readAddress, hread]
  | v6 groups => exact readAddress_groups groups

/-- A printed address is read back. -/
theorem Address.read?_text (a : Address) : Address.read? a.text = some a := by
  rw [Address.read?, Address.text, String.toList_ofList, readAddress_chars]

/-- Different addresses have different texts. -/
theorem Address.chars_inj {a b : Address} (h : a.chars = b.chars) : a = b := by
  have hread := readAddress_chars a
  rw [h, readAddress_chars b] at hread
  cases hread
  rfl

/-! ## Lengths -/

/-- Four octets take fifteen characters at the most. -/
theorem length_octetsText_le (a b c d : UInt8) : (octetsText a b c d).length ≤ 15 := by
  have ha := length_decimalDigits_le a
  have hb := length_decimalDigits_le b
  have hc := length_decimalDigits_le c
  have hd := length_decimalDigits_le d
  simp only [octetsText, List.length_append, List.length_cons]
  omega

/-- A group with its colon takes five characters at the most. -/
theorem length_colonText_le (gs : List UInt16) : (colonText gs).length ≤ 5 * gs.length := by
  induction gs with
  | nil => exact Nat.le_refl _
  | cons g gs ih =>
      have hg := length_groupDigits_le g
      simp only [colonText, List.flatMap_cons, List.length_append, List.length_cons] at ih ⊢
      omega

/-- Up to four digits for each group, and the colons between them. -/
theorem length_groupsText_le (gs : List UInt16) : (groupsText gs).length ≤ 5 * gs.length - 1 := by
  cases gs with
  | nil => exact Nat.le_refl _
  | cons g gs =>
      have hg := length_groupDigits_le g
      have hgs := length_colonText_le gs
      rw [groupsText_cons, List.length_append, List.length_cons]
      omega

/-- Eight groups take thirty-nine characters at the most. -/
theorem length_compressedText_le {gs : List UInt16} (h : gs.length = 8) :
    (compressedText gs).length ≤ 39 := by
  have haround := congrArg List.length (around_longestZeroRun gs)
  unfold compressedText
  generalize longestZeroRun gs = run at haround
  obtain ⟨start, length⟩ := run
  simp only [List.length_append, List.length_replicate, h] at haround
  dsimp only
  split
  · have hfront := length_groupsText_le (gs.take start)
    have hback := length_groupsText_le (gs.drop (start + length))
    simp only [List.length_append, List.length_cons]
    omega
  · have hall := length_groupsText_le gs
    omega

/-- No address prints more than 39 characters. -/
theorem Address.length_chars_le (a : Address) : a.chars.length ≤ 39 := by
  cases a with
  | v4 a b c d => exact Nat.le_trans (length_octetsText_le a b c d) (by decide)
  | v6 groups =>
      unfold Address.chars
      dsimp only
      split
      · rename_i high low _
        have hoctets := length_octetsText_le (octetsOf high).1 (octetsOf high).2 (octetsOf low).1
          (octetsOf low).2
        simp only [List.length_cons]
        omega
      · exact length_compressedText_le (by simp)

end JobFleet.Net
