/-! Blank characters and their removal from the ends of a text. -/
namespace CriteriaQuery.Text
set_option autoImplicit false

/-- White space: the ASCII blanks, the next-line control and the space separators. -/
def isBlank (c : Char) : Bool :=
  let n := c.toNat
  (0x9 ≤ n && n ≤ 0xD) || n == 0x20 || n == 0x85 || n == 0xA0 || n == 0x1680 ||
    (0x2000 ≤ n && n ≤ 0x200A) || n == 0x2028 || n == 0x2029 || n == 0x202F || n == 0x205F ||
    n == 0x3000

def trimFront (cs : List Char) : List Char := cs.dropWhile isBlank

def trim (cs : List Char) : List Char := (trimFront (trimFront cs).reverse).reverse

end CriteriaQuery.Text
