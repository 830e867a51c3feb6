import Atlas.Lib.Json

/-!
# Two readers of one text

Of two dialects, the first may be the softer one: it makes a number of every literal that the
second makes one of, and the second takes no constants.  Then the first reads every text that
the second reads, and reads the same but for the numbers, unless an integer has more digits than
it takes or the containers are nested deeper than it goes.

## Main definitions

* `Dialect.Softer` — the first dialect is softer than the second, whose numbers are related to
  its own.
* `Follows` — what the first reader does when the second succeeds.

## Main results

* `following` — **each part of the first reader follows that of the second**.
* `parse_of_softer` — **the softer reader reads what the other reads**, within its limits.
-/

namespace Json

variable {ν μ : Type} {d : Dialect ν} {e : Dialect μ} {R : ν → μ → Prop}

/-- The first dialect makes a number of every literal that the second makes one of. -/
structure Dialect.Softer (d : Dialect ν) (e : Dialect μ) (R : ν → μ → Prop) : Prop where
  number : ∀ l m, e.number l = .ok m →
    (∃ n, d.number l = .ok n ∧ R n m) ∨ d.number l = .error .tooManyDigits
  constant : ∀ c, e.constant c = none

/-- When the second reader succeeds, the first succeeds with something related and leaves the
same text, or meets a limit. -/
def Follows {α β : Type} (Q : α → β → Prop) (r : Except Failure (α × List ℕ))
    (s : Except Failure (β × List ℕ)) : Prop :=
  ∀ b rest, s = .ok (b, rest) →
    (∃ a, r = .ok (a, rest) ∧ Q a b) ∨ r = .error .tooManyDigits ∨ r = .error .tooDeep

theorem Follows.ok {α β : Type} {Q : α → β → Prop} {a : α} {b : β} {rest : List ℕ} (h : Q a b) :
    Follows Q (.ok (a, rest)) (.ok (b, rest)) := by
  intro b' rest' heq
  obtain ⟨rfl, rfl⟩ := Prod.mk.inj (Except.ok.inj heq)
  exact .inl ⟨a, rfl, h⟩

theorem Follows.error {α β : Type} {Q : α → β → Prop} {r : Except Failure (α × List ℕ)}
    {f : Failure} : Follows Q r (.error f) :=
  fun _ _ h => nomatch h

theorem Follows.tooDeep {α β : Type} {Q : α → β → Prop} {s : Except Failure (β × List ℕ)} :
    Follows Q (.error .tooDeep) s :=
  fun _ _ _ => .inr (.inr rfl)

theorem Follows.bind {α β γ δ : Type} {Q : α → β → Prop} {S : γ → δ → Prop}
    {r : Except Failure (α × List ℕ)} {s : Except Failure (β × List ℕ)}
    {f : α × List ℕ → Except Failure (γ × List ℕ)} {g : β × List ℕ → Except Failure (δ × List ℕ)}
    (hr : Follows Q r s) (hf : ∀ a b rest, Q a b → Follows S (f (a, rest)) (g (b, rest))) :
    Follows S (r >>= f) (s >>= g) := by
  cases s with
  | error e => exact Follows.error
  | ok p =>
    rcases hr p.1 p.2 rfl with ⟨a, rfl, hab⟩ | rfl | rfl
    · exact hf a p.1 p.2 hab
    · exact fun _ _ _ => .inr (.inl rfl)
    · exact Follows.tooDeep

/-! ### Members -/

theorem membersRel_setMember (name : List ℕ) {v : Value ν} {w : Value μ} (hvw : v.Rel R w) :
    ∀ {ms : List (List ℕ × Value ν)} {ns : List (List ℕ × Value μ)}, Value.MembersRel R ms ns →
      Value.MembersRel R (setMember name v ms) (setMember name w ns) := by
  intro ms
  induction ms with
  | nil =>
    intro ns h
    cases ns with
    | nil => exact ⟨rfl, hvw, trivial⟩
    | cons _ _ => exact h.elim
  | cons m ms ih =>
    intro ns h
    cases ns with
    | nil => exact h.elim
    | cons n ns =>
      obtain ⟨first, _⟩ := m
      obtain ⟨other, _⟩ := n
      obtain ⟨rfl, hfirst, hrest⟩ := h
      simp only [setMember]
      split_ifs
      · exact ⟨rfl, hvw, hrest⟩
      · exact ⟨rfl, hfirst, ih hrest⟩

theorem rel_member? (name : List ℕ) :
    ∀ {ms : List (List ℕ × Value ν)} {ns : List (List ℕ × Value μ)}, Value.MembersRel R ms ns →
      ((member? name ms).getD .null).Rel R ((member? name ns).getD .null) := by
  intro ms
  induction ms with
  | nil =>
    intro ns h
    cases ns with
    | nil => trivial
    | cons _ _ => exact h.elim
  | cons m ms ih =>
    intro ns h
    cases ns with
    | nil => exact h.elim
    | cons n ns =>
      obtain ⟨first, _⟩ := m
      obtain ⟨other, _⟩ := n
      obtain ⟨rfl, hfirst, hrest⟩ := h
      have hmembers := ih hrest
      rw [member?, member?, List.lookup_cons, List.lookup_cons]
      cases name == first with
      | true => exact hfirst
      | false => exact hmembers

/-! ### Scalars -/

/-- No constant is the beginning of a number. -/
theorem scanWord_constant_eq_none {cs : List ℕ} {r : Literal × List ℕ}
    (h : scanNumber cs = some r) :
    scanWord "NaN" cs = none ∧ scanWord "Infinity" cs = none ∧ scanWord "-Infinity" cs = none := by
  have hno : ∀ {word : String}, (∀ rest, scanNumber (codes word ++ rest) = none) →
      scanWord word cs = none := by
    intro word hword
    rw [scanWord]
    split_ifs with hpre
    · obtain ⟨rest, rfl⟩ := List.isPrefixOf_iff_prefix.mp hpre
      rw [hword rest] at h
      cases h
    · rfl
  exact ⟨hno fun _ => rfl, hno fun _ => rfl, hno fun _ => rfl⟩

theorem follows_scanScalar (h : d.Softer e R) (cs : List ℕ) :
    Follows (Value.Rel R) (scanScalar d cs) (scanScalar e cs) := by
  cases hnull : scanWord "null" cs with
  | some rest =>
    simp only [scanScalar, hnull, Option.map_some, Option.some_or]
    exact Follows.ok trivial
  | none =>
  cases htrue : scanWord "true" cs with
  | some rest =>
    simp only [scanScalar, hnull, htrue, Option.map_none, Option.map_some, Option.none_or,
      Option.some_or]
    exact Follows.ok rfl
  | none =>
  cases hfalse : scanWord "false" cs with
  | some rest =>
    simp only [scanScalar, hnull, htrue, hfalse, Option.map_none, Option.map_some, Option.none_or,
      Option.some_or]
    exact Follows.ok rfl
  | none =>
  cases hnumber : scanNumber cs with
  | none =>
    have hfail : scanScalar e cs = .error .malformed := by
      simp [scanScalar, hnull, htrue, hfalse, hnumber, h.constant]
    rw [hfail]
    exact Follows.error
  | some r =>
    obtain ⟨hnan, hinf, hneg⟩ := scanWord_constant_eq_none hnumber
    have hd : scanScalar d cs = (d.number r.1).map fun n => (.number n, r.2) := by
      simp [scanScalar, hnull, htrue, hfalse, hnan, hinf, hneg, hnumber]
    have he : scanScalar e cs = (e.number r.1).map fun n => (.number n, r.2) := by
      simp [scanScalar, hnull, htrue, hfalse, hnumber, h.constant]
    rw [hd, he]
    cases hm : e.number r.1 with
    | error f => exact Follows.error
    | ok m =>
      rcases h.number r.1 m hm with ⟨n, hn, hR⟩ | hlimit
      · rw [hn]
        exact Follows.ok hR
      · rw [hlimit]
        exact fun _ _ _ => .inr (.inl rfl)

/-! ### The parser -/

/-- With so much fuel, each part of the first reader follows that of the second. -/
structure Following (d : Dialect ν) (e : Dialect μ) (R : ν → μ → Prop) (fuel : ℕ) : Prop where
  value : ∀ depth cs,
    Follows (Value.Rel R) (parseValue d fuel depth cs) (parseValue e fuel depth cs)
  elements : ∀ depth cs,
    Follows (Value.ElementsRel R) (parseElements d fuel depth cs) (parseElements e fuel depth cs)
  members : ∀ depth cs ms ns, Value.MembersRel R ms ns →
    Follows (Value.MembersRel R) (parseMembers d fuel depth ms cs) (parseMembers e fuel depth ns cs)

section Succ

variable {fuel depth : ℕ} {cs : List ℕ}

/-- A container is refused by the second reader where it is too deep, and by the first. -/
theorem follows_container {r : Except Failure (Value ν × List ℕ)}
    {s : Except Failure (Value μ × List ℕ)} (h : Follows (Value.Rel R) r s) :
    Follows (Value.Rel R) (if d.Full depth then .error .tooDeep else r)
      (if e.Full depth then .error .tooDeep else s) := by
  by_cases hd : d.Full depth
  · rw [if_pos hd]
    exact Follows.tooDeep
  by_cases he : e.Full depth
  · rw [if_pos he]
    exact Follows.error
  rw [if_neg hd, if_neg he]
  exact h

theorem Following.value_succ (h : d.Softer e R) (ih : Following d e R fuel) :
    Follows (Value.Rel R) (parseValue d (fuel + 1) depth cs) (parseValue e (fuel + 1) depth cs) := by
  cases cs with
  | nil => exact Follows.error
  | cons c rest =>
    rw [parseValue, parseValue]
    by_cases hquote : c = '"'.toNat
    · rw [if_pos hquote, if_pos hquote]
      cases scanString rest with
      | none => exact Follows.error
      | some r => exact Follows.ok rfl
    rw [if_neg hquote, if_neg hquote]
    by_cases hbrace : c = '\x7b'.toNat
    · rw [if_pos hbrace, if_pos hbrace]
      refine follows_container ?_
      split_ifs
      · exact Follows.ok trivial
      · exact (ih.members (depth + 1) (skipSpace rest) [] [] trivial).bind
          fun _ _ _ hrel => Follows.ok hrel
    rw [if_neg hbrace, if_neg hbrace]
    by_cases hbracket : c = '['.toNat
    · rw [if_pos hbracket, if_pos hbracket]
      refine follows_container ?_
      split_ifs
      · exact Follows.ok trivial
      · exact (ih.elements (depth + 1) (skipSpace rest)).bind fun _ _ _ hrel => Follows.ok hrel
    rw [if_neg hbracket, if_neg hbracket]
    exact follows_scanScalar h (c :: rest)

theorem Following.elements_succ (ih : Following d e R fuel) :
    Follows (Value.ElementsRel R) (parseElements d (fuel + 1) depth cs)
      (parseElements e (fuel + 1) depth cs) := by
  rw [parseElements, parseElements]
  refine (ih.value depth cs).bind fun v w rest hvw => ?_
  dsimp only
  cases skipSpace rest with
  | nil => exact Follows.error
  | cons c after =>
    dsimp only
    split_ifs
    · exact (ih.elements depth (skipSpace after)).bind fun _ _ _ hrel => Follows.ok ⟨hvw, hrel⟩
    · exact Follows.ok ⟨hvw, trivial⟩
    · exact Follows.error

theorem Following.members_succ (ih : Following d e R fuel) {ms : List (List ℕ × Value ν)}
    {ns : List (List ℕ × Value μ)} (hms : Value.MembersRel R ms ns) :
    Follows (Value.MembersRel R) (parseMembers d (fuel + 1) depth ms cs)
      (parseMembers e (fuel + 1) depth ns cs) := by
  cases cs with
  | nil => exact Follows.error
  | cons c rest =>
    rw [parseMembers, parseMembers]
    split_ifs
    · exact Follows.error
    cases scanString rest with
    | none => exact Follows.error
    | some r =>
      dsimp only
      split_ifs
      · exact Follows.error
      refine (ih.value depth (skipSpace (skipSpace r.2).tail)).bind fun v w after hvw => ?_
      have hset := membersRel_setMember (joinEscapes r.1) hvw hms
      dsimp only
      cases skipSpace after with
      | nil => exact Follows.error
      | cons c last =>
        dsimp only
        split_ifs
        · exact ih.members depth (skipSpace last) _ _ hset
        · exact Follows.ok hset
        · exact Follows.error

end Succ

/-- **Each part of the first reader follows that of the second.** -/
theorem following (h : d.Softer e R) (fuel : ℕ) : Following d e R fuel := by
  induction fuel with
  | zero => exact ⟨fun _ _ => Follows.error, fun _ _ => Follows.error, fun _ _ _ _ _ => Follows.error⟩
  | succ fuel ih =>
    exact ⟨fun _ _ => ih.value_succ h, fun _ _ => ih.elements_succ, fun _ _ _ _ => ih.members_succ⟩

/-- **The softer reader reads what the other reads**, within its limits. -/
theorem parse_of_softer (h : d.Softer e R) {cs : List ℕ} {w : Value μ} (hw : parse e cs = .ok w) :
    (∃ v, parse d cs = .ok v ∧ v.Rel R w) ∨ parse d cs = .error .tooManyDigits ∨
      parse d cs = .error .tooDeep := by
  have hfollows := (following h (2 * cs.length + 1)).value 0 (skipSpace cs)
  rw [parse] at hw ⊢
  cases he : parseValue e (2 * cs.length + 1) 0 (skipSpace cs) with
  | error f =>
    rw [he] at hw
    cases hw
  | ok p =>
    rw [he] at hw
    simp only [bind, Except.bind] at hw ⊢
    split_ifs at hw with hend
    obtain rfl := Except.ok.inj hw
    rcases hfollows p.1 p.2 he with ⟨v, hv, hrel⟩ | hlimit | hlimit
    · rw [hv]
      simp only [if_pos hend]
      exact .inl ⟨v, rfl, hrel⟩
    · rw [hlimit]
      exact .inr (.inl rfl)
    · rw [hlimit]
      exact .inr (.inr rfl)

end Json
