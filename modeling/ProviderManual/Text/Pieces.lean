namespace ProviderManual.Text

def isBlank (c : Char) : Bool :=
  let n := c.toNat
  (0x09 ≤ n && n ≤ 0x0d) || n = 0x20 || n = 0x85 || n = 0xa0 || n = 0x1680
    || (0x2000 ≤ n && n ≤ 0x200a) || n = 0x2028 || n = 0x2029 || n = 0x202f || n = 0x205f
    || n = 0x3000

def trimStart (cs : List Char) : List Char :=
  cs.dropWhile isBlank

def trimEnd (cs : List Char) : List Char :=
  (cs.reverse.dropWhile isBlank).reverse

def trim (cs : List Char) : List Char :=
  trimEnd (trimStart cs)

def trimmed (s : String) : String :=
  String.ofList (trim s.toList)

/-- The pieces between the separators: always one more than there are separators. -/
def pieces (separator : Char) : List Char → List (List Char)
  | [] => [[]]
  | c :: cs =>
      if c = separator then [] :: pieces separator cs
      else match pieces separator cs with
        | [] => [[c]]
        | p :: ps => (c :: p) :: ps

theorem pieces_ne_nil (separator : Char) (cs : List Char) : pieces separator cs ≠ [] := by
  cases cs with
  | nil => simp [pieces]
  | cons c cs =>
      simp only [pieces]
      split
      · simp
      · split <;> simp

theorem pieces_append_cons (separator : Char) (cs ds : List Char) :
    pieces separator (cs ++ separator :: ds) = pieces separator cs ++ pieces separator ds := by
  induction cs with
  | nil => simp [pieces]
  | cons c cs ih =>
      by_cases hc : c = separator
      · simp [pieces, hc, ih]
      · obtain ⟨p, ps, hp⟩ := List.exists_cons_of_ne_nil (pieces_ne_nil separator cs)
        simp [pieces, hc, ih, hp]

theorem not_mem_of_mem_pieces {separator : Char} {cs p : List Char} (h : p ∈ pieces separator cs) :
    separator ∉ p := by
  induction cs generalizing p with
  | nil =>
      rw [List.mem_singleton.1 h]
      exact List.not_mem_nil
  | cons c cs ih =>
      obtain ⟨q, qs, hq⟩ := List.exists_cons_of_ne_nil (pieces_ne_nil separator cs)
      rw [hq] at ih
      by_cases hc : c = separator
      · rw [pieces, if_pos hc, hq] at h
        rcases List.mem_cons.1 h with rfl | h
        · exact List.not_mem_nil
        · exact ih h
      · rw [pieces, if_neg hc, hq] at h
        rcases List.mem_cons.1 h with rfl | h
        · have hfirst := ih List.mem_cons_self
          simp [hfirst, Ne.symm hc]
        · exact ih (List.mem_cons_of_mem _ h)

theorem intercalate_pieces (separator : Char) (cs : List Char) :
    [separator].intercalate (pieces separator cs) = cs := by
  induction cs with
  | nil => rfl
  | cons c cs ih =>
      obtain ⟨p, ps, hp⟩ := List.exists_cons_of_ne_nil (pieces_ne_nil separator cs)
      rw [hp] at ih
      by_cases hc : c = separator
      · rw [pieces, if_pos hc, hp, List.intercalate_cons_cons, ih, hc]
        rfl
      · rw [pieces, if_neg hc, hp]
        cases ps with
        | nil => simpa using ih
        | cons q qs => simpa [List.intercalate_cons_cons] using ih

theorem pieces_of_not_mem {separator : Char} {cs : List Char} (h : separator ∉ cs) :
    pieces separator cs = [cs] := by
  induction cs with
  | nil => rfl
  | cons c cs ih =>
      rw [List.mem_cons, not_or] at h
      rw [pieces, if_neg (Ne.symm h.1), ih h.2]

def dropReturn (line : List Char) : List Char :=
  match line.getLast? with
  | some '\r' => line.dropLast
  | _ => line

def lines (cs : List Char) : List (List Char) :=
  let parts := pieces '\n' cs
  parts.dropLast.map dropReturn ++
    match parts.getLast? with
    | none | some [] => []
    | some last => [last]

def replaceFrom (old new : List Char) (skip : Nat) : List Char → List Char
  | [] => []
  | c :: cs =>
      match skip with
      | skip + 1 => replaceFrom old new skip cs
      | 0 =>
          if old.isPrefixOf (c :: cs) then new ++ replaceFrom old new (old.length - 1) cs
          else c :: replaceFrom old new 0 cs

/-- The empty text occurs between any two characters, before the first and after the last. -/
def replaceAll (old new : List Char) (cs : List Char) : List Char :=
  if old.isEmpty then new ++ cs.flatMap fun c => c :: new
  else replaceFrom old new 0 cs

theorem replaceAll_singleton (a b : Char) (cs : List Char) :
    replaceAll [a] [b] cs = cs.map fun c => if c = a then b else c := by
  have h (cs : List Char) :
      replaceFrom [a] [b] 0 cs = cs.map fun c => if c = a then b else c := by
    induction cs with
    | nil => rfl
    | cons c cs ih =>
        by_cases hc : c = a
        · simp [replaceFrom, hc, ih]
        · simp [replaceFrom, hc, Ne.symm hc, ih]
  simp [replaceAll, h]

end ProviderManual.Text
