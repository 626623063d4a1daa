import DocFix.Text.Basic

/-!
`decode_html_entities`: nine named entities replaced one after the other with
`str.replace`, in the order of `HTML_ENTITIES`, then every numeric entity `&#N;` replaced by
`chr(N)`. `chr` raises `ValueError` from `0x110000` on, which stops the substitution; a
surrogate code point it returns, and the decoded `str` holds it. A `List Char` cannot hold a
lone surrogate, so the decoded text is reported by its first one (`DecodeError.surrogate`):
the three later passes neither drop it nor fail on it, and `fix_markdown_file` fails only
when it writes the file.
-/

namespace DocFix.Mdx

/-- `HTML_ENTITIES`, in its order. -/
def htmlEntities : List (List Char × Char) :=
  [("&#91;".toList, '['), ("&#93;".toList, ']'), ("&#123;".toList, '{'),
    ("&#125;".toList, '}'), ("&lt;".toList, '<'), ("&gt;".toList, '>'),
    ("&amp;".toList, '&'), ("&quot;".toList, Char.ofNat 34), ("&#39;".toList, Char.ofNat 39)]

/-- Why `fix_markdown_file` fails on a file's numeric entities. -/
inductive DecodeError
  /-- `chr(n)` raises `ValueError`: `n` is not below `0x110000`. Nothing has been written. -/
  | notInRange (n : Nat)
  /-- The decoded text holds the lone surrogate `n` (the first one): the UTF-8 write of the
  file raises `UnicodeEncodeError`, after `open` has emptied the file. -/
  | surrogate (n : Nat)
  deriving DecidableEq, Repr

/-- A code point as `chr` returns it: a character, or a lone surrogate, which a Python `str`
holds and a `Char` cannot. -/
inductive CodePoint
  | char (c : Char)
  | surrogate (n : Nat)
  deriving DecidableEq, Repr

/-- `chr(n)`: `ValueError` from `0x110000` on, and the code point otherwise. -/
def chr (n : Nat) : Except DecodeError CodePoint :=
  if n < 0x110000 then
    if 0xD800 ≤ n ∧ n < 0xE000 then .ok (.surrogate n) else .ok (.char (Char.ofNat n))
  else .error (.notInRange n)

/-- `int(digits)` for a run of decimal digits, of any script. -/
def digitsValue (ds : List Char) : Nat :=
  ds.foldl (fun n d => 10 * n + digitValue d) 0

/-- `&#(\d+);` at the start of `s`: the match length and the number. -/
def numericEntity : List Char → Option (Nat × Nat)
  | '&' :: '#' :: rest =>
      let ds := rest.takeWhile isDigit
      if ds ≠ [] ∧ (rest.drop ds.length).head? = some ';' then
        some (ds.length + 3, digitsValue ds)
      else none
  | _ => none

/-- `re.sub(r'&#(\d+);', lambda m: chr(int(m.group(1))), s)`, scanning as `reSub` does;
the first `chr` that raises stops the call. -/
def subNumeric : Nat → List Char → Except DecodeError (List CodePoint)
  | _, [] => .ok []
  | skip + 1, _ :: s => subNumeric skip s
  | 0, c :: s =>
      match numericEntity (c :: s) with
      | some (k, n) => do
          let ch ← chr n
          let rest ← subNumeric (k - 1) s
          pure (ch :: rest)
      | none => do
          let rest ← subNumeric 0 s
          pure (.char c :: rest)

/-- The decoded `str` as a `List Char`, or its first lone surrogate. -/
def toChars : List CodePoint → Except DecodeError (List Char)
  | [] => .ok []
  | .char c :: cs => (toChars cs).map (c :: ·)
  | .surrogate n :: _ => .error (.surrogate n)

/-- `decode_html_entities(content)`. -/
def decodeHtmlEntities (content : List Char) : Except DecodeError (List Char) :=
  subNumeric 0 (htmlEntities.foldl (fun s e => replace e.1 [e.2] s) content) >>= toChars

/-- `&#1114112;` names the code point `0x110000`: `chr` raises and nothing is written. -/
theorem decodeHtmlEntities_past_last_code_point :
    decodeHtmlEntities "&#1114112;".toList = .error (.notInRange 1114112) := by
  rfl

/-- A surrogate does not stop the substitution: an entity past `0x10FFFF` after it still
raises `ValueError`. -/
example : decodeHtmlEntities "&#55296;".toList = .error (.surrogate 55296) ∧
    decodeHtmlEntities "&#55296;&#1114112;".toList = .error (.notInRange 1114112) :=
  ⟨rfl, rfl⟩

/-- Where no suffix starts a numeric entity, the numeric substitution copies the text. -/
theorem subNumeric_of_forall_none {s : List Char} (h : ∀ u ∈ s.tails, numericEntity u = none) :
    ∀ k, subNumeric k s = .ok ((s.drop k).map .char) := by
  induction s with
  | nil => intro k; cases k <;> rfl
  | cons c s ih =>
      simp only [List.tails, List.mem_cons, forall_eq_or_imp] at h
      intro k
      cases k with
      | succ k => exact ih h.2 k
      | zero =>
          simp only [subNumeric, h.1, ih h.2 0]
          rfl

theorem toChars_map_char : ∀ s : List Char, toChars (s.map .char) = .ok s
  | [] => rfl
  | c :: s => by rw [List.map_cons, toChars, toChars_map_char s]; rfl

/-! ### Encoding one level -/

/-- The encoder inverse to `HTML_ENTITIES`: `&` and each character of the table replaced by
its entity, every other character kept. -/
def encodeHtmlEntities (s : List Char) : List Char :=
  s.flatMap fun c =>
    match htmlEntities.find? (·.2 == c) with
    | some e => e.1
    | none => [c]

/-- The text `&#91;`, encoded once, decodes to `[`: the `&` that `&amp;` gives forms a
numeric entity with the text after it, and the regex that runs last decodes it again. -/
theorem decodeHtmlEntities_decodes_encoded_entity_twice :
    encodeHtmlEntities "&#91;".toList = "&amp;#91;".toList ∧
      decodeHtmlEntities (encodeHtmlEntities "&#91;".toList) = .ok ['['] :=
  ⟨by decide, rfl⟩

end DocFix.Mdx
