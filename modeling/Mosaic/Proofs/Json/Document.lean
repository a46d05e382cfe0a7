import Mosaic.Json.Document
import Mosaic.Proofs.Json.Number
import Mosaic.Proofs.Json.Text

/-! A document is read back from its text, however it is laid out. The text is read as the tokens of the document, and
these are read as the tree that they were taken from. -/
namespace Mosaic.Json

namespace Token

variable {t : Token} {ts us : List Token} {cs rest rest' : List Char}

def chars : Token → List Char
  | .openRecord => ['\x7b']
  | .closeRecord => ['\x7d']
  | .openList => ['[']
  | .closeList => [']']
  | .comma => [',']
  | .colon => [':']
  | .null => ['n', 'u', 'l', 'l']
  | .bool true => ['t', 'r', 'u', 'e']
  | .bool false => ['f', 'a', 'l', 's', 'e']
  | .number n => n.chars
  | .text t => t.quote

/-- The token can be written, so that it is the same when it is read. -/
def IsWritable : Token → Prop
  | .number n => n.IsLiteral
  | .text t => ∀ p ∈ t, p.IsWritable
  | _ => True

theorem chars_number {n : Number} (h : n.IsLiteral) : ∃ c cs, n.chars = c :: cs ∧ (c = '-' ∨ c.isDigit = true) := by
  obtain ⟨d, ds, hwhole⟩ := List.exists_cons_of_ne_nil h.whole
  rw [Number.chars_eq, hwhole]
  cases n.negative with
  | true => exact ⟨'-', _, rfl, .inl rfl⟩
  | false => exact ⟨d, _, rfl, .inr (h.digits d (hwhole ▸ List.mem_cons_self))⟩

/-- What starts with a sign or a digit is a number, if it is a token. -/
theorem next?_number {c : Char} (h : c = '-' ∨ c.isDigit = true) (cs : List Char) :
    next? (c :: cs) = do
      let (n, rest) ← Number.scan (c :: cs)
      return (.number n, rest) := by
  unfold next?
  split
  -- No other token starts that way.
  iterate 10
    · next heq =>
      injection heq with heq
      subst heq
      exact absurd h (by decide)
  · rfl

theorem next?_chars (h : t.IsWritable) (hrest : ∀ n, t = .number n → Number.Ends rest) :
    next? (t.chars ++ rest) = some (t, rest) := by
  cases t with
  | number n =>
    have hscan := Number.scan_chars h (hrest n rfl)
    obtain ⟨c, cs, hchars, hfirst⟩ := chars_number h
    rw [hchars, List.cons_append] at hscan
    rw [chars, hchars, List.cons_append, next?_number hfirst, hscan]
    rfl
  | text t =>
    have hscan := Text.scan_flatMap_escape h [] rest
    simp [chars, Text.quote, next?, hscan]
  | bool b => cases b <;> rfl
  | _ => rfl

theorem chars_eq_cons (h : t.IsWritable) : ∃ c cs, t.chars = c :: cs ∧ isBlank c = false := by
  cases t with
  | number n =>
    obtain ⟨c, cs, hchars, hfirst⟩ := chars_number h
    refine ⟨c, cs, hchars, ?_⟩
    rw [Bool.eq_false_iff]
    intro hblank
    simp only [isBlank, Bool.or_eq_true, beq_iff_eq] at hblank
    rcases hblank with ((rfl | rfl) | rfl) | rfl
    all_goals exact absurd hfirst (by decide)
  | bool b => cases b <;> exact ⟨_, _, rfl, rfl⟩
  | _ => exact ⟨_, _, rfl, rfl⟩

/-- The tokens are read from the front of a text, and the rest of it is left. -/
def Reads (cs : List Char) (ts : List Token) (rest : List Char) : Prop :=
  ∀ done fuel, cs.length ≤ fuel →
    ∃ left, rest.length ≤ left ∧ scan done fuel cs = scan (ts.reverse ++ done) left rest

theorem Reads.refl (cs : List Char) : Reads cs [] cs := fun _ fuel h => ⟨fuel, h, rfl⟩

theorem Reads.trans (h : Reads cs ts rest) (h' : Reads rest us rest') : Reads cs (ts ++ us) rest' := by
  intro done fuel hfuel
  obtain ⟨left, hleft, hscan⟩ := h done fuel hfuel
  obtain ⟨left', hleft', hscan'⟩ := h' (ts.reverse ++ done) left hleft
  refine ⟨left', hleft', ?_⟩
  rw [hscan, hscan', List.reverse_append, List.append_assoc]

theorem Reads.token (h : t.IsWritable) (hrest : ∀ n, t = .number n → Number.Ends rest) :
    Reads (t.chars ++ rest) [t] rest := by
  have hnext := next?_chars h hrest
  obtain ⟨c, cs, hchars, hblank⟩ := chars_eq_cons h
  rw [hchars] at hnext ⊢
  rintro done (_ | fuel) hfuel
  · cases hfuel
  · simp only [List.cons_append, List.length_cons, List.length_append] at hfuel
    refine ⟨fuel, by omega, ?_⟩
    rw [List.cons_append] at hnext ⊢
    simp [scan, hblank, hnext]

theorem Reads.blanks {b : List Char} (h : ∀ c ∈ b, isBlank c = true) (rest : List Char) :
    Reads (b ++ rest) [] rest := by
  induction b with
  | nil => exact .refl rest
  | cons c b ih =>
    obtain ⟨hc, hb⟩ := List.forall_mem_cons.1 h
    rintro done (_ | fuel) hfuel
    · cases hfuel
    · obtain ⟨left, hleft, hscan⟩ := ih hb done fuel (Nat.le_of_succ_le_succ hfuel)
      refine ⟨left, hleft, ?_⟩
      rw [List.cons_append, scan, if_pos hc, hscan]

theorem split_of_reads (h : Reads cs ts []) : split cs = some ts := by
  obtain ⟨left, -, hscan⟩ := h [] cs.length (Nat.le_refl _)
  rw [split, hscan, List.append_nil]
  cases left <;> simp [scan]

end Token

namespace Value

mutual

def tokens : Value → List Token
  | .null => [.null]
  | .bool b => [.bool b]
  | .number n => [.number n]
  | .text t => [.text t]
  | .list [] => [.openList, .closeList]
  | .list (v :: vs) => .openList :: (tokens v ++ (itemsTokens vs ++ [.closeList]))
  | .record [] => [.openRecord, .closeRecord]
  | .record ((name, v) :: fs) =>
    .openRecord :: .text name :: .colon :: (tokens v ++ (fieldsTokens fs ++ [.closeRecord]))

def itemsTokens : List Value → List Token
  | [] => []
  | v :: vs => .comma :: (tokens v ++ itemsTokens vs)

def fieldsTokens : List (Text × Value) → List Token
  | [] => []
  | (name, v) :: fs => .comma :: .text name :: .colon :: (tokens v ++ fieldsTokens fs)

end

def IsWritable (v : Value) : Prop := ∀ t ∈ v.tokens, t.IsWritable

/-! ### The text of a document -/

section

variable {style : Style} {level : Nat} {rest rest' : List Char} {ts : List Token}

open Token (Reads)

theorem reads_newline (style : Style) (level : Nat) (rest : List Char) :
    Reads (style.newline level ++ rest) [] rest := by
  refine .blanks (fun c hc => ?_) rest
  cases style with
  | compact => cases hc
  | indented step =>
    rcases List.mem_cons.1 hc with rfl | hc
    · rfl
    · rw [List.eq_of_mem_replicate hc]
      rfl

theorem reads_colon (style : Style) (rest : List Char) : Reads (style.colon ++ rest) [.colon] rest := by
  cases style with
  | compact => exact .token (t := .colon) trivial nofun
  | indented step =>
    have hblank : ∀ c ∈ [' '], Token.isBlank c = true := List.forall_mem_singleton.2 rfl
    exact (Reads.token (t := .colon) trivial nofun).trans (.blanks hblank rest)

/-- A bracket or a comma does not go on a number. -/
theorem ends_of_mark {c : Char} (h : c ∈ [',', ']', '\x7d', '\n']) (cs : List Char) : Number.Ends (c :: cs) := by
  rintro d ⟨⟩
  revert h
  simp only [List.mem_cons, List.not_mem_nil, or_false]
  rintro (rfl | rfl | rfl | rfl)
  all_goals decide

theorem ends_newline {c : Char} (h : c ∈ [',', ']', '\x7d', '\n']) (style : Style) (level : Nat) (cs : List Char) :
    Number.Ends (style.newline level ++ c :: cs) := by
  cases style with
  | compact => exact ends_of_mark h cs
  | indented step => exact ends_of_mark (by decide) _

theorem ends_items (style : Style) (level : Nat) (vs : List Value) (h : Number.Ends rest) :
    Number.Ends (itemsChars style level vs ++ rest) := by
  cases vs with
  | nil => exact h
  | cons v vs => exact ends_of_mark (by decide) _

theorem ends_fields (style : Style) (level : Nat) (fs : List (Text × Value)) (h : Number.Ends rest) :
    Number.Ends (fieldsChars style level fs ++ rest) := by
  cases fs with
  | nil => exact h
  | cons f fs => exact ends_of_mark (by decide) _

theorem reads_name {name : Text} (h : ∀ p ∈ name, p.IsWritable) (style : Style) (rest : List Char) :
    Reads (name.quote ++ (style.colon ++ rest)) [.text name, .colon] rest :=
  (Reads.token (t := .text name) h nofun).trans (reads_colon style rest)

mutual

/-- The text of a document is read as its tokens. -/
theorem reads_chars (style : Style) : ∀ (v : Value) (level : Nat) (rest : List Char), v.IsWritable →
    Number.Ends rest → Reads (v.chars style level ++ rest) v.tokens rest
  | .null, _, _, _, _ => .token (t := .null) trivial nofun
  | .bool b, _, rest, _, _ => by
    have hread : Reads ((Token.bool b).chars ++ rest) [.bool b] rest := .token trivial nofun
    cases b <;> exact hread
  | .number n, _, _, h, hrest => .token (t := .number n) (h _ List.mem_cons_self) fun _ _ => hrest
  | .text t, _, _, h, _ => .token (t := .text t) (h _ List.mem_cons_self) nofun
  | .list [], _, rest, _, _ =>
    (Reads.token (t := .openList) trivial nofun).trans (.token (t := .closeList) trivial nofun)
  | .list (v :: vs), level, rest, h, _ => by
    obtain ⟨hv, hvs⟩ := List.forall_mem_append.1 (List.forall_mem_cons.1 h).2
    have hclose := ends_newline (c := ']') (by decide) style level rest
    have hitems := reads_itemsChars style vs (level + 1) _ (List.forall_mem_append.1 hvs).1 hclose
    have hread := (reads_chars style v (level + 1) _ hv (ends_items style (level + 1) vs hclose)).trans hitems
    have hread := (reads_newline style (level + 1) _).trans hread
    have hread := (hread.trans (reads_newline style level _)).trans (.token (t := .closeList) trivial nofun)
    have hread := (Reads.token (t := .openList) trivial nofun).trans hread
    simpa [chars, tokens, Token.chars] using hread
  | .record [], _, rest, _, _ =>
    (Reads.token (t := .openRecord) trivial nofun).trans (.token (t := .closeRecord) trivial nofun)
  | .record ((name, v) :: fs), level, rest, h, _ => by
    simp only [IsWritable, tokens, List.forall_mem_cons, List.forall_mem_append] at h
    obtain ⟨-, hname, -, hv, hfs, -⟩ := h
    have hclose := ends_newline (c := '\x7d') (by decide) style level rest
    have hfields := reads_fieldsChars style fs (level + 1) _ hfs hclose
    have hread := (reads_chars style v (level + 1) _ hv (ends_fields style (level + 1) fs hclose)).trans hfields
    have hread := (reads_newline style (level + 1) _).trans ((reads_name hname style _).trans hread)
    have hread := (hread.trans (reads_newline style level _)).trans (.token (t := .closeRecord) trivial nofun)
    have hread := (Reads.token (t := .openRecord) trivial nofun).trans hread
    simpa [chars, tokens, Token.chars] using hread

theorem reads_itemsChars (style : Style) : ∀ (vs : List Value) (level : Nat) (rest : List Char),
    (∀ t ∈ itemsTokens vs, t.IsWritable) → Number.Ends rest →
      Reads (itemsChars style level vs ++ rest) (itemsTokens vs) rest
  | [], _, rest, _, _ => .refl rest
  | v :: vs, level, rest, h, hrest => by
    obtain ⟨hv, hvs⟩ := List.forall_mem_append.1 (List.forall_mem_cons.1 h).2
    have hitems := reads_itemsChars style vs level rest hvs hrest
    have hread := (reads_chars style v level _ hv (ends_items style level vs hrest)).trans hitems
    have hread := (Reads.token (t := .comma) trivial nofun).trans ((reads_newline style level _).trans hread)
    simpa [itemsChars, itemsTokens, Token.chars] using hread

theorem reads_fieldsChars (style : Style) : ∀ (fs : List (Text × Value)) (level : Nat) (rest : List Char),
    (∀ t ∈ fieldsTokens fs, t.IsWritable) → Number.Ends rest →
      Reads (fieldsChars style level fs ++ rest) (fieldsTokens fs) rest
  | [], _, rest, _, _ => .refl rest
  | (name, v) :: fs, level, rest, h, hrest => by
    simp only [fieldsTokens, List.forall_mem_cons, List.forall_mem_append] at h
    obtain ⟨-, hname, -, hv, hfs⟩ := h
    have hfields := reads_fieldsChars style fs level rest hfs hrest
    have hread := (reads_chars style v level _ hv (ends_fields style level fs hrest)).trans hfields
    have hread := (reads_newline style level _).trans ((reads_name hname style _).trans hread)
    have hread := (Reads.token (t := .comma) trivial nofun).trans hread
    simpa [fieldsChars, fieldsTokens, Token.chars] using hread

end

end

/-! ### The tree of a document -/

/-- The tokens take the reader of the tree from one state to another. -/
def Builds (s : State) (ts : List Token) (s' : State) : Prop := ts.foldlM step s = some s'

section

variable {s s₁ s₂ : State} {ts us : List Token}

theorem Builds.trans (h : Builds s ts s₁) (h' : Builds s₁ us s₂) : Builds s (ts ++ us) s₂ := by
  rw [Builds, List.foldlM_append, h]
  exact h'

theorem Builds.cons {t : Token} (h : step s t = some s₁) (h' : Builds s₁ ts s₂) : Builds s (t :: ts) s₂ := by
  rw [Builds, List.foldlM_cons, h]
  exact h'

/-- Where a list may end, the tokens of its first item are read like those of any value. -/
theorem builds_first (v : Value) (frames : List Frame) (h : Builds ⟨.value, .list [] :: frames⟩ v.tokens s) :
    Builds ⟨.itemOrClose, frames⟩ v.tokens s := by
  cases v with
  | list items => cases items <;> exact h
  | record fields => cases fields <;> exact h
  | _ => exact h

mutual

/-- The tokens of a document are read as the document. -/
theorem builds_tokens : ∀ (v : Value) (frames : List Frame), Builds ⟨.value, frames⟩ v.tokens ⟨.rest v, frames⟩
  | .null, _ => rfl
  | .bool _, _ => rfl
  | .number _, _ => rfl
  | .text _, _ => rfl
  | .list [], _ => rfl
  | .list (v :: vs), frames => by
    have hfirst := builds_first v frames (builds_tokens v (.list [] :: frames))
    exact .cons rfl (hfirst.trans (builds_itemsTokens vs v [] frames))
  | .record [], _ => rfl
  | .record ((name, v) :: fs), frames => by
    have hfirst := builds_tokens v (.record [] name :: frames)
    exact .cons rfl (.cons rfl (.cons rfl (hfirst.trans (builds_fieldsTokens fs name v [] frames))))

theorem builds_itemsTokens : ∀ (vs : List Value) (v : Value) (before : List Value) (frames : List Frame),
    Builds ⟨.rest v, .list before :: frames⟩ (itemsTokens vs ++ [.closeList])
      ⟨.rest (.list (before.reverse ++ v :: vs)), frames⟩
  | [], v, before, frames => by simp [Builds, itemsTokens, step, follow]
  | w :: vs, v, before, frames => by
    have hitem := builds_tokens w (.list (v :: before) :: frames)
    have hread := hitem.trans (builds_itemsTokens vs w (v :: before) frames)
    simpa [itemsTokens] using Builds.cons (s := ⟨.rest v, .list before :: frames⟩) (t := .comma) rfl hread

theorem builds_fieldsTokens : ∀ (fs : List (Text × Value)) (name : Text) (v : Value) (before : List (Text × Value))
    (frames : List Frame), Builds ⟨.rest v, .record before name :: frames⟩ (fieldsTokens fs ++ [.closeRecord])
      ⟨.rest (.record (before.reverse ++ (name, v) :: fs)), frames⟩
  | [], name, v, before, frames => by simp [Builds, fieldsTokens, step, follow]
  | (name', w) :: fs, name, v, before, frames => by
    have hfield := builds_tokens w (.record ((name, v) :: before) name' :: frames)
    have hread := hfield.trans (builds_fieldsTokens fs name' w ((name, v) :: before) frames)
    have hread := Builds.cons (s := ⟨.rest v, .record before name :: frames⟩) (t := .comma) rfl
      (.cons (t := .text name') rfl (.cons (t := .colon) rfl hread))
    simpa [fieldsTokens] using hread

end

end

/-- A document that can be written is read back from its text. -/
theorem parse?_render {v : Value} (h : v.IsWritable) (style : Style) : parse? (v.render style) = some v := by
  have hread := reads_chars style v 0 [] h nofun
  rw [List.append_nil] at hread
  have hbuild := builds_tokens v []
  rw [Builds] at hbuild
  simp [parse?, render, Token.split_of_reads hread, ofTokens?, hbuild, State.value?]

/-! ### What can be written -/

theorem isWritable_null : IsWritable .null := by simp [IsWritable, tokens, Token.IsWritable]

theorem isWritable_bool (b : Bool) : IsWritable (.bool b) := by simp [IsWritable, tokens, Token.IsWritable]

theorem isWritable_ofInt (n : Int) : (ofInt n).IsWritable := by
  simp [IsWritable, ofInt, tokens, Token.IsWritable, Number.isLiteral_ofInt]

theorem isWritable_ofString (s : String) : (ofString s).IsWritable := by
  simpa [IsWritable, ofString, tokens, Token.IsWritable] using Text.isWritable_ofString s

theorem isWritable_items {vs : List Value} (h : ∀ v ∈ vs, v.IsWritable) : ∀ t ∈ itemsTokens vs, t.IsWritable := by
  induction vs with
  | nil => exact nofun
  | cons v vs ih =>
    obtain ⟨hv, hvs⟩ := List.forall_mem_cons.1 h
    exact List.forall_mem_cons.2 ⟨trivial, List.forall_mem_append.2 ⟨hv, ih hvs⟩⟩

theorem isWritable_list {vs : List Value} (h : ∀ v ∈ vs, v.IsWritable) : (list vs).IsWritable := by
  cases vs with
  | nil => simp [IsWritable, tokens, Token.IsWritable]
  | cons v vs =>
    obtain ⟨-, hitems⟩ := List.forall_mem_cons.1 (isWritable_items h)
    rw [IsWritable, tokens, ← List.append_assoc]
    exact List.forall_mem_cons.2 ⟨trivial, List.forall_mem_append.2 ⟨hitems, List.forall_mem_singleton.2 trivial⟩⟩

theorem isWritable_fieldsTokens {entries : List (String × Value)} (h : ∀ e ∈ entries, e.2.IsWritable) :
    ∀ t ∈ fieldsTokens (entries.map fun (name, v) => (.ofString name, v)), t.IsWritable := by
  induction entries with
  | nil => exact nofun
  | cons e entries ih =>
    obtain ⟨he, hentries⟩ := List.forall_mem_cons.1 h
    rw [List.map_cons, fieldsTokens]
    exact List.forall_mem_cons.2 ⟨trivial, List.forall_mem_cons.2 ⟨Text.isWritable_ofString e.1,
      List.forall_mem_cons.2 ⟨trivial, List.forall_mem_append.2 ⟨he, ih hentries⟩⟩⟩⟩

theorem isWritable_fields {entries : List (String × Value)} (h : ∀ e ∈ entries, e.2.IsWritable) :
    (fields entries).IsWritable := by
  cases entries with
  | nil => simp [fields, IsWritable, tokens, Token.IsWritable]
  | cons e entries =>
    obtain ⟨-, hfields⟩ := List.forall_mem_cons.1 (isWritable_fieldsTokens h)
    rw [fields, List.map_cons, IsWritable, tokens, ← List.append_assoc, ← List.cons_append, ← List.cons_append]
    exact List.forall_mem_cons.2 ⟨trivial, List.forall_mem_append.2 ⟨hfields, List.forall_mem_singleton.2 trivial⟩⟩

end Value

end Mosaic.Json
