namespace BinderIdl.Text

/-- The characters with the Unicode property `White_Space`. -/
def isBlank (c : Char) : Bool :=
  let n := c.toNat
  (9 ≤ n && n ≤ 13) || n == 0x20 || n == 0x85 || n == 0xA0 || n == 0x1680
    || (0x2000 ≤ n && n ≤ 0x200A) || n == 0x2028 || n == 0x2029 || n == 0x202F
    || n == 0x205F || n == 0x3000

def removeBlanks (text : List Char) : List Char :=
  text.filter fun c => !isBlank c

theorem isBlank_eq_false_of_mem_removeBlanks {c : Char} {text : List Char}
    (h : c ∈ removeBlanks text) : isBlank c = false := by
  simpa using (List.mem_filter.mp h).2

theorem removeBlanks_eq_self {text : List Char}
    (h : ∀ c ∈ text, isBlank c = false) : removeBlanks text = text :=
  List.filter_eq_self.mpr fun c hc => by simp [h c hc]

theorem removeBlanks_removeBlanks (text : List Char) :
    removeBlanks (removeBlanks text) = removeBlanks text :=
  removeBlanks_eq_self fun _ h => isBlank_eq_false_of_mem_removeBlanks h

def trimStart (text : List Char) : List Char :=
  text.dropWhile isBlank

def trimEnd (text : List Char) : List Char :=
  (text.reverse.dropWhile isBlank).reverse

def trim (text : List Char) : List Char :=
  trimEnd (trimStart text)

end BinderIdl.Text
