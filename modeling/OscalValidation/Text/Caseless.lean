import OscalValidation.Text.LowerCase

set_option autoImplicit false

/-! # Caseless comparison of characters

The fixed parts of a site address are compared without regard to case. Beyond equal lower
case, some small letters count as the same letter: the long s is an s, the dotless i an
i, and the variant forms of Greek and Cyrillic letters are their base letters.
-/

namespace OscalValidation.Text

/-- Small letters with the other small letters that count as the same. -/
def caselessVariants : List (Nat × List Nat) :=
  [(105, [305]), (115, [383]), (181, [956]), (305, [105]), (383, [115]), (837, [953, 8126]),
   (912, [8147]), (944, [8163]), (946, [976]), (949, [1013]), (952, [977]), (953, [837, 8126]),
   (954, [1008]), (956, [181]), (960, [982]), (961, [1009]), (962, [963]), (963, [962]),
   (966, [981]), (976, [946]), (977, [952]), (981, [966]), (982, [960]), (1008, [954]),
   (1009, [961]), (1013, [949]), (1074, [7296]), (1076, [7297]), (1086, [7298]),
   (1089, [7299]), (1090, [7300, 7301]), (1098, [7302]), (1123, [7303]), (7296, [1074]),
   (7297, [1076]), (7298, [1086]), (7299, [1089]), (7300, [1090, 7301]), (7301, [1090, 7300]),
   (7302, [1098]), (7303, [1123]), (7304, [42571]), (7777, [7835]), (7835, [7777]),
   (8126, [837, 953]), (8147, [912]), (8163, [944]), (42571, [7304]), (64261, [64262]),
   (64262, [64261])]

/-- `c` stands for the letter `p` of a fixed text, whatever the case of either. -/
def sameCaseless (p c : Char) : Bool :=
  let letter := lowerChar p
  let found := lowerChar c
  found == letter ||
    match caselessVariants.lookup letter.toNat with
    | some variants => variants.contains found.toNat
    | none => false

end OscalValidation.Text
