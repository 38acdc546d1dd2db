import Mathlib.Data.List.TakeWhile
import Mathlib.Data.Nat.Digits.Lemmas
import Vpipe.Pgm

/-! The header of a PGM file as a format of its own, and what `vpipe_read_pgm` makes of it: gaps
of white space and comments, numerals with an optional sign, and one byte before the pixels. -/
namespace Vpipe.PgmFormat
open Vpipe.Lib.Word Vpipe.Pgm

inductive Gap : List UInt8 → Prop where
  | done : Gap []
  | space {c : UInt8} {rest : List UInt8} (blank : isspace c = true) (more : Gap rest) : Gap (c :: rest)
  | comment {body rest : List UInt8} (line : newline ∉ body) (more : Gap rest) :
      Gap (hash :: (body ++ newline :: rest))

theorem commentSkipped {body : List UInt8} (line : newline ∉ body) (rest : List UInt8) :
    skipFrom true (body ++ newline :: rest) = skipFrom false rest := by
  induction body with
  | nil => simp [skipFrom]
  | cons c body ih =>
    obtain ⟨other, later⟩ := not_or.mp (fun either => line (List.mem_cons.mpr either))
    simp [skipFrom, Ne.symm other, ih later]

theorem gapSkipped {gap : List UInt8} (passed : Gap gap) {c : UInt8} (solid : c ≠ hash)
    (dark : isspace c = false) (rest : List UInt8) : skipFrom false (gap ++ c :: rest) = (some c,rest) := by
  induction passed with
  | done => simp [skipFrom, solid, dark]
  | @space b gap blank _ ih =>
    have other : b ≠ hash := by
      rintro rfl
      contradiction
    simp [skipFrom, other, blank, ih]
  | comment line _ ih =>
    simp only [List.cons_append, List.append_assoc, skipFrom, if_true, Bool.false_eq_true, if_false]
    rw [commentSkipped line, ih]

theorem skipSource (stream : List UInt8) {c : UInt8} {rest : List UInt8} :
    (skipFrom false stream = (some c,rest) → ∃ gap, Gap gap ∧ stream = gap ++ c :: rest ∧
      c ≠ hash ∧ isspace c = false) ∧
    (skipFrom true stream = (some c,rest) → ∃ body gap, newline ∉ body ∧ Gap gap ∧
      stream = body ++ newline :: (gap ++ c :: rest) ∧ c ≠ hash ∧ isspace c = false) := by
  induction stream with
  | nil => simp [skipFrom]
  | cons b stream ih =>
    obtain ⟨outside, inside⟩ := ih
    constructor
    · intro skipped
      simp only [skipFrom, Bool.false_eq_true, if_false] at skipped
      split at skipped
      · rename_i same
        obtain ⟨body, gap, line, passed, found, solid, dark⟩ := inside skipped
        refine ⟨b :: (body ++ newline :: gap),?_,by simp [found],solid,dark⟩
        rw [same]
        exact .comment line passed
      · split at skipped
        · rename_i blank
          obtain ⟨gap, passed, found, solid, dark⟩ := outside skipped
          exact ⟨b :: gap,.space blank passed,by simp [found],solid,dark⟩
        · rename_i other dark
          obtain ⟨rfl, rfl⟩ : b = c ∧ stream = rest := by simpa using skipped
          exact ⟨[],.done,rfl,other,by simpa using dark⟩
    · intro skipped
      simp only [skipFrom, if_true] at skipped
      by_cases last : b = newline
      · simp only [last, ne_eq, not_true_eq_false, decide_false] at skipped
        obtain ⟨gap, passed, found, solid, dark⟩ := outside skipped
        exact ⟨[],gap,by simp,passed,by simp [last, found],solid,dark⟩
      · simp only [last, ne_eq, not_false_eq_true, decide_true] at skipped
        obtain ⟨body, gap, line, passed, found, solid, dark⟩ := inside skipped
        exact ⟨b :: body,gap,by simp [line, Ne.symm last],passed,by simp [found],solid,dark⟩

theorem skipEnd (stream : List UInt8) {comment : Bool} {rest : List UInt8}
    (ended : skipFrom comment stream = (none,rest)) : rest = [] := by
  induction stream generalizing comment with
  | nil =>
    simp only [skipFrom, Prod.mk.injEq, true_and] at ended
    exact ended.symm
  | cons c stream ih =>
    simp only [skipFrom] at ended
    split at ended
    · exact ih ended
    · split at ended
      · exact ih ended
      · split at ended
        · exact ih ended
        · simp at ended

inductive Sign where
  | bare | plus | minus
  deriving DecidableEq, Repr

def Sign.bytes : Sign → List UInt8
  | .bare => []
  | .plus => [0x2b]
  | .minus => [0x2d]

structure Numeral where
  sign : Sign
  digits : List UInt8
  some_ : digits ≠ []
  all : ∀ d ∈ digits, isdigit d = true
  deriving DecidableEq

def Numeral.bytes (n : Numeral) : List UInt8 := n.sign.bytes ++ n.digits

def Numeral.value (n : Numeral) : Int :=
  if n.sign = .minus then -(digitsValue n.digits : Int) else digitsValue n.digits

def Numeral.stored (n : Numeral) : Nat := u32 (strtoul (n.sign = .minus) n.digits)

def Stops (rest : List UInt8) : Prop := ∀ d ∈ rest.head?, isdigit d = false

instance (rest : List UInt8) : Decidable (Stops rest) :=
  decidable_of_iff (rest.head?.all (fun d => !isdigit d) = true) (by cases rest <;> simp [Stops])

theorem spanTaken {kind : UInt8 → Bool} {taken rest : List UInt8} (all : ∀ c ∈ taken, kind c = true)
    (stops : ∀ c ∈ rest.head?, kind c = false) :
    (taken ++ rest).takeWhile kind = taken ∧ (taken ++ rest).dropWhile kind = rest := by
  rw [List.takeWhile_append_of_pos all, List.dropWhile_append_of_pos all]
  cases rest with
  | nil => simp
  | cons c rest =>
    have stop := stops c rfl
    simp [stop]

theorem dropStops (stream : List UInt8) : Stops (stream.dropWhile isdigit) := by
  induction stream with
  | nil => simp [Stops]
  | cons c stream ih =>
    rw [List.dropWhile_cons]
    split
    · exact ih
    · rename_i other
      intro d head
      obtain rfl : c = d := by simpa using head
      simpa using other

theorem digitPlain {d : UInt8} (digit : isdigit d = true) :
    d ≠ hash ∧ isspace d = false ∧ d ≠ 0x2d ∧ d ≠ 0x2b := by
  refine ⟨?_,?_,?_,?_⟩
  · rintro rfl
    contradiction
  · simp only [isdigit, isspace, Bool.and_eq_true, decide_eq_true_eq, UInt8.le_iff_toNat_le] at *
    have low : (0x30 : UInt8).toNat = 48 := rfl
    have white : (0x0d : UInt8).toNat = 13 := rfl
    have blank : d ≠ 0x20 := by
      rintro rfl
      contradiction
    simp only [blank, decide_false, Bool.false_or, Bool.and_eq_false_iff, decide_eq_false_iff_not]
    omega
  · rintro rfl
    contradiction
  · rintro rfl
    contradiction

theorem numeralHead (n : Numeral) : ∃ c rest, n.bytes = c :: rest ∧ c ≠ hash ∧ isspace c = false := by
  obtain ⟨sign, digits, some_, all⟩ := n
  cases sign with
  | plus => exact ⟨0x2b,digits,rfl,by decide,by decide⟩
  | minus => exact ⟨0x2d,digits,rfl,by decide,by decide⟩
  | bare =>
    cases digits with
    | nil => contradiction
    | cons d digits =>
      obtain ⟨solid, dark, _⟩ := digitPlain (all d (by simp))
      exact ⟨d,digits,rfl,solid,dark⟩

theorem signTaken (n : Numeral) (rest : List UInt8) :
    takeSign (n.bytes ++ rest) = (decide (n.sign = .minus),n.digits ++ rest) := by
  obtain ⟨sign, digits, some_, all⟩ := n
  cases sign with
  | plus => rfl
  | minus => rfl
  | bare =>
    cases digits with
    | nil => contradiction
    | cons d digits =>
      obtain ⟨_, _, minus, plus⟩ := digitPlain (all d (by simp))
      simp [Numeral.bytes, Sign.bytes, takeSign, minus, plus]

theorem numeralScanned {blanks : List UInt8} (blank : ∀ c ∈ blanks, isspace c = true) (n : Numeral)
    {rest : List UInt8} (stops : Stops rest) : scanU (blanks ++ (n.bytes ++ rest)) = some (n.stored,rest) := by
  obtain ⟨c, tail, head, _, dark⟩ := numeralHead n
  have dropped : (blanks ++ (n.bytes ++ rest)).dropWhile isspace = n.bytes ++ rest := by
    refine (spanTaken blank (fun d first => ?_)).2
    rw [head] at first
    obtain rfl : c = d := by simpa using first
    exact dark
  obtain ⟨taken, left⟩ := spanTaken n.all stops
  unfold scanU
  rw [dropped, signTaken]
  simp only [taken, left, List.isEmpty_iff, n.some_, if_false]
  rfl

theorem signSource (stream : List UInt8) : ∃ sign :
    Sign, takeSign stream = (decide (sign = .minus),(takeSign stream).2) ∧
    stream = sign.bytes ++ (takeSign stream).2 := by
  cases stream with
  | nil => exact ⟨.bare,rfl,rfl⟩
  | cons c stream =>
    simp only [takeSign]
    split
    · rename_i same
      exact ⟨.minus,rfl,by rw [same]; rfl⟩
    · split
      · rename_i same
        exact ⟨.plus,rfl,by rw [same]; rfl⟩
      · exact ⟨.bare,rfl,rfl⟩

theorem scanSource {stream rest : List UInt8} {v : Nat} (scanned : scanU stream = some (v,rest)) :
    ∃ blanks n, (∀ c ∈ blanks, isspace c = true) ∧ stream = blanks ++ (Numeral.bytes n ++ rest) ∧ Stops rest ∧
      v = n.stored := by
  obtain ⟨sign, taken, split_⟩ := signSource (stream.dropWhile isspace)
  unfold scanU at scanned
  rw [taken] at scanned
  generalize (takeSign (stream.dropWhile isspace)).2 = body at *
  simp only at scanned
  split at scanned
  · contradiction
  · rename_i some_
    obtain ⟨rfl, rfl⟩ : u32 (strtoul (decide (sign = .minus)) (body.takeWhile isdigit)) = v ∧
      body.dropWhile isdigit = rest := by simpa using scanned
    refine ⟨stream.takeWhile isspace,⟨sign,body.takeWhile isdigit,?_,?_⟩,?_,?_,dropStops body,rfl⟩
    · simpa using some_
    · exact fun d member => List.mem_takeWhile_imp member
    · exact fun c member => List.mem_takeWhile_imp member
    · rw [Numeral.bytes, List.append_assoc, List.takeWhile_append_dropWhile, ← split_,
        List.takeWhile_append_dropWhile]

/- `first` and `second` are passed over by vpipe_skip_space, `blanks` by fscanf; `last` is the byte
fgetc takes. Each numeral is as long as it can be. -/
structure Header where
  first : List UInt8
  width : Numeral
  blanks : List UInt8
  height : Numeral
  second : List UInt8
  maxval : Numeral
  last : UInt8
  firstGap : Gap first
  blank : ∀ c ∈ blanks, isspace c = true
  secondGap : Gap second
  afterWidth : Stops (blanks ++ height.bytes)
  afterHeight : Stops (second ++ maxval.bytes)
  afterMaxval : isdigit last = false

def Header.bytes (h : Header) : List UInt8 :=
  [0x50,0x35] ++ h.first ++ h.width.bytes ++ h.blanks ++ h.height.bytes ++ h.second ++
    h.maxval.bytes ++ [h.last]

theorem magicSource {file stream : List UInt8} (found : magic file = some stream) :
    file = 0x50 :: 0x35 :: stream := by
  unfold magic at found
  split at found
  · rw [Option.some.inj found]
  · contradiction

def readPixels (width height maxval : Nat) (stream : List UInt8) (malloc : Bool) : Option PgmImage :=
  if width = 0 ∨ height = 0 ∨ width > pgmMaxDim ∨ height > pgmMaxDim then none
  else if maxval ≠ 255 then none
  else if !malloc then none
  else if stream.length < width * height then none
  else some ⟨width,height,width * height,stream.take (width * height)⟩

theorem readSource {file : List UInt8} {malloc : Bool} {img : PgmImage}
    (accepted : vpipeReadPgm file malloc = some img) :
    ∃ stream width afterWidth height afterHeight maxval afterMaxval, magic file = some stream ∧
      scanU (ungetc (vpipeSkipSpace stream)) = some (width,afterWidth) ∧
      scanU afterWidth = some (height,afterHeight) ∧
      scanU (ungetc (vpipeSkipSpace afterHeight)) = some (maxval,afterMaxval) ∧
      readPixels width height maxval afterMaxval.tail malloc = some img := by
  simp only [vpipeReadPgm, Option.bind_eq_bind, Option.bind_eq_some_iff] at accepted
  obtain ⟨stream, magical, ⟨width, afterWidth⟩, first, ⟨height, afterHeight⟩, second, dims⟩ := accepted
  split at dims
  · contradiction
  · rename_i range
    simp only [Option.bind_eq_some_iff] at dims
    obtain ⟨⟨maxval, afterMaxval⟩, third, body⟩ := dims
    refine ⟨stream,width,afterWidth,height,afterHeight,maxval,afterMaxval,magical,first,second,third,?_⟩
    rw [readPixels, if_neg range]
    exact body

theorem pixelsSource {width height maxval : Nat} {stream : List UInt8} {malloc : Bool} {img : PgmImage}
    (read : readPixels width height maxval stream malloc = some img) :
    (1 ≤ width ∧ width ≤ 4096) ∧ (1 ≤ height ∧ height ≤ 4096) ∧ maxval = 255 ∧ width * height ≤ stream.length ∧
      img = ⟨width,height,width * height,stream.take (width * height)⟩ := by
  unfold readPixels at read
  split at read
  · contradiction
  · rename_i range
    unfold pgmMaxDim at range
    split at read
    · contradiction
    · rename_i plain
      split at read
      · contradiction
      · split at read
        · contradiction
        · rename_i long
          exact ⟨by omega,by omega,Decidable.not_not.mp plain,Nat.not_lt.mp long,(Option.some.inj read).symm⟩

theorem stopsAppend {a b : List UInt8} (some_ : a ≠ []) : Stops (a ++ b) ↔ Stops a := by
  cases a with
  | nil => contradiction
  | cons c a => exact Iff.rfl

theorem numeralSome (n : Numeral) : n.bytes ≠ [] := by
  obtain ⟨c, rest, head, _⟩ := numeralHead n
  simp [head]

theorem headerStops (h : Header) (stream : List UInt8) :
    Stops (h.blanks ++ (h.height.bytes ++ (h.second ++ (h.maxval.bytes ++ h.last :: stream)))) ∧
    Stops (h.second ++ (h.maxval.bytes ++ h.last :: stream)) ∧ Stops (h.last :: stream) := by
  refine ⟨?_,?_,?_⟩
  · rw [← List.append_assoc, stopsAppend (by simp [numeralSome])]
    exact h.afterWidth
  · rw [← List.append_assoc, stopsAppend (by simp [numeralSome])]
    exact h.afterHeight
  · intro d head
    obtain rfl : h.last = d := by simpa using head
    exact h.afterMaxval

theorem gapNumeral {gap : List UInt8} (passed : Gap gap) (n : Numeral) {rest : List UInt8}
    (stops : Stops rest) :
    scanU (ungetc (vpipeSkipSpace (gap ++ (n.bytes ++ rest)))) = some (n.stored,rest) := by
  obtain ⟨c, tail, head, solid, dark⟩ := numeralHead n
  have back : ungetc (vpipeSkipSpace (gap ++ (n.bytes ++ rest))) = n.bytes ++ rest := by
    rw [head, List.cons_append, vpipeSkipSpace, gapSkipped passed solid dark]
    rfl
  have none_ : ∀ c ∈ ([] : List UInt8), isspace c = true := by simp
  rw [back]
  exact numeralScanned none_ n stops

theorem headerRead (h : Header) (stream : List UInt8) (malloc : Bool) :
    vpipeReadPgm (h.bytes ++ stream) malloc =
      readPixels h.width.stored h.height.stored h.maxval.stored stream malloc := by
  obtain ⟨afterWidth, afterHeight, afterMaxval⟩ := headerStops h stream
  have file : h.bytes ++ stream = 0x50 :: 0x35 :: (h.first ++ (h.width.bytes ++ (h.blanks ++ (h.height.bytes ++
      (h.second ++ (h.maxval.bytes ++ h.last :: stream)))))) := by
    simp [Header.bytes]
  have width := gapNumeral h.firstGap h.width afterWidth
  have height := numeralScanned h.blank h.height afterHeight
  have maxval := gapNumeral h.secondGap h.maxval afterMaxval
  simp only [vpipeReadPgm, file, magic, Option.bind_eq_bind, Option.bind_some, width, height, maxval,
    List.tail_cons]
  rfl

theorem gapNumeralSource {stream rest : List UInt8} {v : Nat}
    (scanned : scanU (ungetc (vpipeSkipSpace stream)) = some (v,rest)) :
    ∃ gap n, Gap gap ∧ stream = gap ++ (Numeral.bytes n ++ rest) ∧ Stops rest ∧ v = n.stored := by
  unfold vpipeSkipSpace at scanned
  cases skipped : skipFrom false stream with
  | mk first tail =>
    rw [skipped] at scanned
    cases first with
    | none =>
      -- The stream ended in the gap, so nothing is left to scan.
      rw [skipEnd stream skipped] at scanned
      contradiction
    | some c =>
      obtain ⟨gap, passed, found, _, dark⟩ := (skipSource stream).1 skipped
      obtain ⟨blanks, n, blank, split_, stops, stored⟩ := scanSource scanned
      have none_ : blanks = [] := by
        cases blanks with
        | nil => rfl
        | cons b blanks =>
          have same : c = b := (List.cons.inj split_).1
          have white := blank b (by simp)
          rw [← same, dark] at white
          contradiction
      rw [none_, List.nil_append] at split_
      exact ⟨gap,n,passed,by rw [found, ← split_]; rfl,stops,stored⟩

theorem headerSource {file : List UInt8} {malloc : Bool} {img : PgmImage}
    (accepted : vpipeReadPgm file malloc = some img) : ∃ h stream, file = Header.bytes h ++ stream := by
  obtain ⟨stream, width, afterWidth, height, afterHeight, maxval, afterMaxval, magical,
      widthScanned, heightScanned,
    maxvalScanned, read⟩ := readSource accepted
  obtain ⟨first, w, firstGap, found, widthStops, _⟩ := gapNumeralSource widthScanned
  obtain ⟨blanks, h, blank, between, heightStops, _⟩ := scanSource heightScanned
  obtain ⟨second, m, secondGap, then_, maxvalStops, _⟩ := gapNumeralSource maxvalScanned
  obtain ⟨wide, high, _, long, _⟩ := pixelsSource read
  cases afterMaxval with
  | nil =>
    -- Without a byte after the numeral there is no pixel either.
    have some_ := Nat.mul_pos wide.1 high.1
    simp only [List.tail_nil, List.length_nil] at long
    omega
  | cons last rest =>
    rw [between, ← List.append_assoc, stopsAppend (by simp [numeralSome])] at widthStops
    rw [then_, ← List.append_assoc, stopsAppend (by simp [numeralSome])] at heightStops
    refine ⟨⟨first,w,blanks,h,second,m,last,firstGap,blank,secondGap,widthStops,heightStops,
      maxvalStops last rfl⟩,rest,?_⟩
    simp [Header.bytes, magicSource magical, found, between, then_]

theorem numeralUnique {n n' : Numeral} {rest rest' : List UInt8} (stops : Stops rest) (stops' : Stops rest')
    (same : n.bytes ++ rest = n'.bytes ++ rest') : n = n' ∧ rest = rest' := by
  have bodies : n.digits ++ rest = n'.digits ++ rest' := by
    have signs := congrArg (fun stream => (takeSign stream).2) same
    simp only [signTaken] at signs
    exact signs
  obtain ⟨taken, left⟩ := spanTaken n.all stops
  obtain ⟨taken', left'⟩ := spanTaken n'.all stops'
  have digits : n.digits = n'.digits := by rw [← taken, bodies, taken']
  have rests : rest = rest' := by rw [← left, bodies, left']
  obtain ⟨sign, word, some_, all⟩ := n
  obtain ⟨sign', word', some_', all'⟩ := n'
  simp only at digits
  subst digits rests
  have signs : sign.bytes = sign'.bytes := List.append_cancel_right (List.append_cancel_right same)
  refine ⟨?_,rfl⟩
  cases sign <;> cases sign' <;> simp [Sign.bytes] at signs ⊢

theorem gapNumeralUnique {gap gap' : List UInt8} (passed : Gap gap) (passed' : Gap gap') {n n' : Numeral}
    {rest rest' : List UInt8} (stops : Stops rest) (stops' : Stops rest')
    (same : gap ++ (n.bytes ++ rest) = gap' ++ (n'.bytes ++ rest')) : gap = gap' ∧ n = n' ∧ rest = rest' := by
  obtain ⟨c, tail, head, solid, dark⟩ := numeralHead n
  obtain ⟨c', tail', head', solid', dark'⟩ := numeralHead n'
  have streams : n.bytes ++ rest = n'.bytes ++ rest' := by
    rw [head, head'] at same ⊢
    have skipped := congrArg (skipFrom false) same
    rw [List.cons_append, gapSkipped passed solid dark, List.cons_append, gapSkipped passed' solid' dark']
      at skipped
    obtain ⟨first, later⟩ := Prod.mk.inj skipped
    rw [List.cons_append, List.cons_append, Option.some.inj first, later]
  rw [streams] at same
  obtain ⟨numerals, rests⟩ := numeralUnique stops stops' streams
  exact ⟨List.append_cancel_right same,numerals,rests⟩

theorem blanksGap {blanks : List UInt8} (blank : ∀ c ∈ blanks, isspace c = true) : Gap blanks := by
  induction blanks with
  | nil => exact .done
  | cons c blanks ih => exact .space (blank c (by simp)) (ih (fun d member => blank d (by simp [member])))

theorem headerUnique {h h' : Header} {stream stream' : List UInt8}
    (same : h.bytes ++ stream = h'.bytes ++ stream') : h = h' ∧ stream = stream' := by
  obtain ⟨afterWidth, afterHeight, afterMaxval⟩ := headerStops h stream
  obtain ⟨afterWidth', afterHeight', afterMaxval'⟩ := headerStops h' stream'
  simp only [Header.bytes, List.append_assoc, List.cons_append, List.nil_append, List.cons.injEq,
    true_and] at same
  obtain ⟨first, width, same⟩ := gapNumeralUnique h.firstGap h'.firstGap afterWidth afterWidth' same
  obtain ⟨blanks, height, same⟩ :=
    gapNumeralUnique (blanksGap h.blank) (blanksGap h'.blank) afterHeight afterHeight' same
  obtain ⟨second, maxval, same⟩ := gapNumeralUnique h.secondGap h'.secondGap afterMaxval afterMaxval' same
  obtain ⟨last, streams⟩ := List.cons.inj same
  obtain ⟨_, _, _, _, _, _, _⟩ := h
  obtain ⟨_, _, _, _, _, _, _⟩ := h'
  simp only at first width blanks height second maxval last
  subst first width blanks height second maxval last
  exact ⟨rfl,streams⟩

def Numeral.Plain (n : Numeral) : Prop := n.sign = .bare ∧ digitsValue n.digits < 2^32

def Header.Plain (h : Header) : Prop := h.width.Plain ∧ h.height.Plain ∧ h.maxval.Plain

structure Honest (h : Header) (img : PgmImage) : Prop where
  unsigned : h.width.sign = .bare ∧ h.height.sign = .bare ∧ h.maxval.sign = .bare
  width : 1 ≤ h.width.value ∧ h.width.value ≤ 4096
  height : 1 ≤ h.height.value ∧ h.height.value ≤ 4096
  maxval : h.maxval.value = 255
  image : (img.width : Int) = h.width.value ∧ (img.height : Int) = h.height.value ∧
    (img.size : Int) = h.width.value * h.height.value
  pixels : (img.pixels.length : Int) = h.width.value * h.height.value

theorem plainStored {n : Numeral} (plain : n.Plain) : (n.stored : Int) = n.value := by
  obtain ⟨bare, small⟩ := plain
  have wide : ¬ 2^64 ≤ digitsValue n.digits := by omega
  simp only [Numeral.stored, Numeral.value, strtoul, bare, wide, reduceCtorEq, decide_false,
    Bool.false_eq_true, if_false]
  rw [u32Of small]

theorem smallPlain {n : Numeral} (bare : n.sign = .bare) (small : n.value < 2^32) : n.Plain := by
  simp only [Numeral.value, bare, reduceCtorEq, if_false] at small
  exact ⟨bare,by omega⟩

/-- A file that is accepted consists of a header, the pixels and bytes that are not read; the
header is the only one it has, and says what the image is exactly when its three numerals have no
sign and are below 2^32. -/
theorem acceptedHonest {file : List UInt8} {malloc : Bool} {img : PgmImage}
    (accepted : vpipeReadPgm file malloc = some img) :
    ∃ h rest, file = Header.bytes h ++ (img.pixels ++ rest) ∧
      (∀ h' rest', file = Header.bytes h' ++ rest' → h' = h) ∧ (Honest h img ↔ h.Plain) := by
  obtain ⟨h, stream, found⟩ := headerSource accepted
  rw [found, headerRead] at accepted
  obtain ⟨wide, high, max, long, rfl⟩ := pixelsSource accepted
  refine ⟨h,stream.drop (h.width.stored * h.height.stored),?_,?_,?_,?_⟩
  · rw [List.take_append_drop]
    exact found
  · intro h' rest' found'
    exact (headerUnique (found'.symm.trans found)).1
  · intro honest
    obtain ⟨widthBare, heightBare, maxvalBare⟩ := honest.unsigned
    have width := honest.width.2
    have height := honest.height.2
    have maxval := honest.maxval
    exact ⟨smallPlain widthBare (by omega),smallPlain heightBare (by omega),smallPlain maxvalBare (by omega)⟩
  · rintro ⟨width, height, maxval⟩
    have storedWidth := plainStored width
    have storedHeight := plainStored height
    have storedMaxval := plainStored maxval
    refine ⟨⟨width.1,height.1,maxval.1⟩,by omega,by omega,by omega,⟨storedWidth,storedHeight,?_⟩,?_⟩
    · rw [← storedWidth, ← storedHeight, Int.natCast_mul]
    · rw [List.length_take, Nat.min_eq_left long, ← storedWidth, ← storedHeight, Int.natCast_mul]

def commentedFile : List UInt8 :=
  [0x50,0x35,hash,0x31,newline,0x31,0x20,0x31,newline,0x32,0x35,0x35,newline,0x07]

theorem commentedHonest : ∃ h rest, commentedFile = Header.bytes h ++ ([0x07] ++ rest) ∧
    (∀ h' rest', commentedFile = Header.bytes h' ++ rest' → h' = h) ∧ (Honest h ⟨1,1,1,[0x07]⟩ ↔ h.Plain) := by
  have accepted : vpipeReadPgm commentedFile = some ⟨1,1,1,[0x07]⟩ := by decide
  exact acceptedHonest accepted

def wrappedHeader : Header where
  first := [newline]
  width := ⟨.bare,[0x34,0x32,0x39,0x34,0x39,0x36,0x37,0x32,0x39,0x37],by decide,List.all_eq_true.mp rfl⟩
  blanks := [0x20]
  height := ⟨.bare,[0x31],by decide,List.all_eq_true.mp rfl⟩
  second := [newline]
  maxval := ⟨.bare,[0x32,0x35,0x35],by decide,List.all_eq_true.mp rfl⟩
  last := newline
  firstGap := .space (by decide) .done
  blank := List.all_eq_true.mp rfl
  secondGap := .space (by decide) .done
  afterWidth := by decide
  afterHeight := by decide
  afterMaxval := by decide

theorem wrappedAccepted :
    vpipeReadPgm (wrappedHeader.bytes ++ [0x00]) = some ⟨1,1,1,[0x00]⟩ ∧
      wrappedHeader.width.value = 4294967297 ∧
    ∀ h rest, wrappedHeader.bytes ++ [0x00] = Header.bytes h ++ rest → ¬ Honest h ⟨1,1,1,[0x00]⟩ := by
  refine ⟨by decide,by decide,fun h rest found honest => ?_⟩
  obtain ⟨rfl, _⟩ := headerUnique found
  have width := honest.width.2
  have wrapped : wrappedHeader.width.value = 4294967297 := by decide
  omega

theorem digitsValueReverse {digits : List Nat} (small : ∀ d ∈ digits, d < 10) :
    digitsValue (digits.reverse.map (fun d => UInt8.ofNat (0x30 + d))) = Nat.ofDigits 10 digits := by
  induction digits with
  | nil => rfl
  | cons d digits ih =>
    have first := small d (by simp)
    have rest := ih (fun c member => small c (by simp [member]))
    have byte : (UInt8.ofNat (0x30 + d)).toNat = 0x30 + d := by
      rw [UInt8.toNat_ofNat']
      omega
    unfold digitsValue at rest ⊢
    rw [List.reverse_cons, List.map_append, List.foldl_append, rest, Nat.ofDigits_cons]
    simp only [List.map_cons, List.map_nil, List.foldl_cons, List.foldl_nil, byte]
    omega

theorem decimalValue (n : Nat) : digitsValue (decimal n) = n := by
  unfold decimal
  split
  · rename_i zero
    rw [zero]
    rfl
  · rw [digitsValueReverse (fun d member => Nat.digits_lt_base (by decide) member), Nat.ofDigits_digits]

theorem decimalDigits (n : Nat) : ∀ d ∈ decimal n, isdigit d = true := by
  unfold decimal
  split
  · exact List.all_eq_true.mp rfl
  · intro c member
    obtain ⟨d, inside, rfl⟩ := List.mem_map.mp member
    have small : d < 10 := Nat.digits_lt_base (by decide) (List.mem_reverse.mp inside)
    have all : ∀ d, d < 10 → isdigit (UInt8.ofNat (0x30 + d)) = true := by decide
    exact all d small

theorem decimalSome (n : Nat) : decimal n ≠ [] := by
  unfold decimal
  split
  · simp
  · rename_i some_
    simp [Nat.digits_eq_nil_iff_eq_zero, some_]

def decimalNumeral (n : Nat) : Numeral := ⟨.bare,decimal n,decimalSome n,decimalDigits n⟩

theorem decimalStored {n : Nat} (small : n < 2^32) : (decimalNumeral n).stored = n := by
  have plain : (decimalNumeral n).Plain := ⟨rfl,by rw [decimalNumeral, decimalValue]; exact small⟩
  have stored := plainStored plain
  have value : (decimalNumeral n).value = n := by
    rw [Numeral.value, if_neg (by simp [decimalNumeral]), decimalNumeral, decimalValue]
  omega

def written (width height : Nat) : Header where
  first := [newline]
  width := decimalNumeral width
  blanks := [0x20]
  height := decimalNumeral height
  second := [newline]
  maxval := decimalNumeral 255
  last := newline
  firstGap := .space (by decide) .done
  blank := List.all_eq_true.mp rfl
  secondGap := .space (by decide) .done
  afterWidth := fun d head => by
    obtain rfl : (0x20 : UInt8) = d := by simpa using head
    decide
  afterHeight := fun d head => by
    obtain rfl : newline = d := by simpa using head
    decide
  afterMaxval := by decide

theorem writtenBytes (width height : Nat) : (written width height).bytes = pgmHeader width height := by
  have max : decimal 255 = [0x32,0x35,0x35] := by decide
  simp [Header.bytes, written, decimalNumeral, Numeral.bytes, Sign.bytes, pgmHeader, max]

theorem sizedReadBack {img : PgmImage} (sized : WellSized img) :
    vpipeReadPgm (vpipeWritePgm img.pixels img.width img.height) = some img := by
  have width := sized.width
  have height := sized.height
  have whole : img.pixels.length = img.width * img.height := sized.pixels.trans sized.size
  rw [vpipeWritePgm, ← writtenBytes, headerRead]
  simp only [written, decimalStored (show img.width < 2^32 by omega),
    decimalStored (show img.height < 2^32 by omega), decimalStored (show 255 < 2^32 by decide)]
  rw [readPixels, if_neg (by unfold pgmMaxDim; omega), if_neg (by decide), if_neg (by decide),
    List.take_of_length_le (Nat.le_of_eq whole), if_neg (by omega), List.take_of_length_le (Nat.le_of_eq whole),
    ← sized.size]

/-- A PGM file that is written is read back as it was, whatever its pixels are. -/
theorem writeRead {width height : Nat} (wide : 1 ≤ width ∧ width ≤ 4096) (high : 1 ≤ height ∧ height ≤ 4096)
    {data : List UInt8} (whole : data.length = width * height) :
    vpipeReadPgm (vpipeWritePgm data width height) = some ⟨width,height,width * height,data⟩ := by
  have sized : WellSized ⟨width,height,width * height,data⟩ := ⟨wide,high,rfl,whole⟩
  simpa only using sizedReadBack sized

theorem hashPixelsRead :
    vpipeReadPgm (vpipeWritePgm [hash,newline] 2 1) = some ⟨2,1,2,[hash,newline]⟩ :=
  writeRead (by decide) (by decide) rfl

end Vpipe.PgmFormat
