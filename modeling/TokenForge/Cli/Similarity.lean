import TokenForge.Number.Binary64

/-!
# Similar names

How alike two names are, for hints at what a misspelt word could mean. Each character of one name is
paired with an equal one of the other that is not too far from its place; the score, worked out in
binary64, grows with the share of paired characters and shrinks with the pairs that are out of
order.

* `pairs` — the characters that find a partner, in the order of either name;
* `score` — the similarity, from zero to one;
* `similar` — the known names that are similar enough, the most similar last.
-/

namespace TokenForge.Cli.Similarity

/-- **A partner for `c`** between the places `low` and `high`, `j` being the place of the first
character of the list. The first one that is free is taken. -/
def claim (c : Char) (low high : Nat) : Nat → List (Char × Bool) → Option (List (Char × Bool))
  | _, [] => none
  | j, (d, taken) :: rest =>
    if low ≤ j ∧ j ≤ high ∧ d = c ∧ taken = false then some ((d, true) :: rest)
    else (claim c low high (j + 1) rest).map ((d, taken) :: ·)

/-- How far apart partners may be. -/
def reach (a b : List Char) : Nat := max a.length b.length / 2 - 1

/-- The characters of `a`, from the place `i` on, that find a partner in `b`, and `b` with the
partners marked. -/
def pairFrom (r i : Nat) (b : List (Char × Bool)) : List Char → List Char × List (Char × Bool)
  | [] => ([], b)
  | c :: cs =>
    match claim c (i - r) (i + r) 0 b with
    | some b' =>
      let (paired, marked) := pairFrom r (i + 1) b' cs
      (c :: paired, marked)
    | none => pairFrom r (i + 1) b cs

/-- **The characters with a partner**, in the order of `a` and in the order of `b`. -/
def pairs (a b : List Char) : List Char × List Char :=
  let (paired, marked) := pairFrom (reach a b) 0 (b.map (·, false)) a
  (paired, (marked.filter Prod.snd).map Prod.fst)

def ratio (num den : Nat) : Magnitude := (Magnitude.ofRatio? num den).getD .zero

def plus (x y : Magnitude) : Magnitude := (x.add? y).getD .zero

/-- **How alike two names are.** -/
def score (a b : List Char) : Magnitude :=
  let (p, q) := pairs a b
  let m := p.length
  let swapped := ((p.zip q).filter fun c => c.1 ≠ c.2).length / 2
  if a.length = 0 ∧ b.length = 0 then ratio 1 1
  else if m = 0 then .zero
  else
    let sum := plus (plus (ratio m a.length) (ratio m b.length)) (ratio (m - swapped) m)
    (sum.div? (ratio 3 1)).getD .zero

/-- Names that score no more than this are not similar. -/
def threshold : Magnitude := ratio 7 10

/-- **The known names that are similar to a name**, the most similar last; of two as similar, the
later known one last. -/
def similar (name : String) (known : List String) : List String :=
  let scored := known.map fun k => (k, (score name.toList k.toList).bits)
  ((scored.filter fun s => threshold.bits < s.2).mergeSort fun s t => s.2 ≤ t.2).map Prod.fst

end TokenForge.Cli.Similarity
