/-!
# Letter case

The small form and the title form of every character, in all scripts whose letters have a case. Most forms are one
character long; some are longer. Letters at equal distances, each as far from its form as the next, make one run.
-/

namespace NetBridge.Text

def isSmall (c : Char) : Bool := 'a' ≤ c && c ≤ 'z'

def isCapital (c : Char) : Bool := 'A' ≤ c && c ≤ 'Z'

structure Run where
  first : Nat
  form : Nat
  count : Nat
  step : Nat

namespace Run

def swap (r : Run) : Run := { r with first := r.form, form := r.first }

def form? (r : Run) (n : Nat) : Option Nat :=
  if r.first ≤ n ∧ n < r.first + r.count * r.step ∧ (n - r.first) % r.step = 0 then some (r.form + (n - r.first))
  else none

end Run

/-- Capitals whose small letters lead back to them. -/
def capitals : List Run := [
  ⟨192, 224, 23, 1⟩, ⟨216, 248, 7, 1⟩, ⟨256, 257, 24, 2⟩, ⟨306, 307, 3, 2⟩, ⟨313, 314, 8, 2⟩, ⟨330, 331, 23, 2⟩,
  ⟨376, 255, 1, 1⟩, ⟨377, 378, 3, 2⟩, ⟨385, 595, 1, 1⟩, ⟨386, 387, 2, 2⟩, ⟨390, 596, 1, 1⟩, ⟨391, 392, 1, 1⟩,
  ⟨393, 598, 2, 1⟩, ⟨395, 396, 1, 1⟩, ⟨398, 477, 1, 1⟩, ⟨399, 601, 1, 1⟩, ⟨400, 603, 1, 1⟩, ⟨401, 402, 1, 1⟩,
  ⟨403, 608, 1, 1⟩, ⟨404, 611, 1, 1⟩, ⟨406, 617, 1, 1⟩, ⟨407, 616, 1, 1⟩, ⟨408, 409, 1, 1⟩, ⟨412, 623, 1, 1⟩,
  ⟨413, 626, 1, 1⟩, ⟨415, 629, 1, 1⟩, ⟨416, 417, 3, 2⟩, ⟨422, 640, 2, 3⟩, ⟨423, 424, 1, 1⟩, ⟨428, 429, 2, 3⟩,
  ⟨430, 648, 1, 1⟩, ⟨433, 650, 2, 1⟩, ⟨435, 436, 2, 2⟩, ⟨439, 658, 1, 1⟩, ⟨440, 441, 1, 1⟩, ⟨444, 445, 1, 1⟩,
  ⟨453, 454, 3, 3⟩, ⟨461, 462, 8, 2⟩, ⟨478, 479, 9, 2⟩, ⟨498, 499, 2, 2⟩, ⟨502, 405, 1, 1⟩, ⟨503, 447, 1, 1⟩,
  ⟨504, 505, 20, 2⟩, ⟨544, 414, 1, 1⟩, ⟨546, 547, 9, 2⟩, ⟨570, 11365, 1, 1⟩, ⟨571, 572, 1, 1⟩, ⟨573, 410, 1, 1⟩,
  ⟨574, 11366, 1, 1⟩, ⟨577, 578, 1, 1⟩, ⟨579, 384, 1, 1⟩, ⟨580, 649, 1, 1⟩, ⟨581, 652, 1, 1⟩, ⟨582, 583, 5, 2⟩,
  ⟨880, 881, 2, 2⟩, ⟨886, 887, 1, 1⟩, ⟨895, 1011, 1, 1⟩, ⟨902, 940, 1, 1⟩, ⟨904, 941, 3, 1⟩, ⟨908, 972, 1, 1⟩,
  ⟨910, 973, 2, 1⟩, ⟨913, 945, 17, 1⟩, ⟨931, 963, 9, 1⟩, ⟨975, 983, 1, 1⟩, ⟨984, 985, 12, 2⟩, ⟨1015, 1016, 2, 3⟩,
  ⟨1017, 1010, 1, 1⟩, ⟨1021, 891, 3, 1⟩, ⟨1024, 1104, 16, 1⟩, ⟨1040, 1072, 32, 1⟩, ⟨1120, 1121, 17, 2⟩,
  ⟨1162, 1163, 27, 2⟩, ⟨1216, 1231, 1, 1⟩, ⟨1217, 1218, 7, 2⟩, ⟨1232, 1233, 48, 2⟩, ⟨1329, 1377, 38, 1⟩,
  ⟨4256, 11520, 38, 1⟩, ⟨4295, 11559, 1, 1⟩, ⟨4301, 11565, 1, 1⟩, ⟨5024, 43888, 80, 1⟩, ⟨5104, 5112, 6, 1⟩,
  ⟨7680, 7681, 75, 2⟩, ⟨7840, 7841, 48, 2⟩, ⟨7944, 7936, 8, 1⟩, ⟨7960, 7952, 6, 1⟩, ⟨7976, 7968, 8, 1⟩,
  ⟨7992, 7984, 8, 1⟩, ⟨8008, 8000, 6, 1⟩, ⟨8025, 8017, 4, 2⟩, ⟨8040, 8032, 8, 1⟩, ⟨8072, 8064, 8, 1⟩,
  ⟨8088, 8080, 8, 1⟩, ⟨8104, 8096, 8, 1⟩, ⟨8120, 8112, 2, 1⟩, ⟨8122, 8048, 2, 1⟩, ⟨8124, 8115, 1, 1⟩,
  ⟨8136, 8050, 4, 1⟩, ⟨8140, 8131, 1, 1⟩, ⟨8152, 8144, 2, 1⟩, ⟨8154, 8054, 2, 1⟩, ⟨8168, 8160, 2, 1⟩,
  ⟨8170, 8058, 2, 1⟩, ⟨8172, 8165, 1, 1⟩, ⟨8184, 8056, 2, 1⟩, ⟨8186, 8060, 2, 1⟩, ⟨8188, 8179, 1, 1⟩,
  ⟨8498, 8526, 1, 1⟩, ⟨8544, 8560, 16, 1⟩, ⟨8579, 8580, 1, 1⟩, ⟨9398, 9424, 26, 1⟩, ⟨11264, 11312, 48, 1⟩,
  ⟨11360, 11361, 1, 1⟩, ⟨11362, 619, 1, 1⟩, ⟨11363, 7549, 1, 1⟩, ⟨11364, 637, 1, 1⟩, ⟨11367, 11368, 3, 2⟩,
  ⟨11373, 593, 1, 1⟩, ⟨11374, 625, 1, 1⟩, ⟨11375, 592, 1, 1⟩, ⟨11376, 594, 1, 1⟩, ⟨11378, 11379, 2, 3⟩,
  ⟨11390, 575, 2, 1⟩, ⟨11392, 11393, 50, 2⟩, ⟨11499, 11500, 2, 2⟩, ⟨11506, 11507, 1, 1⟩, ⟨42560, 42561, 23, 2⟩,
  ⟨42624, 42625, 14, 2⟩, ⟨42786, 42787, 7, 2⟩, ⟨42802, 42803, 31, 2⟩, ⟨42873, 42874, 2, 2⟩, ⟨42877, 7545, 1, 1⟩,
  ⟨42878, 42879, 5, 2⟩, ⟨42891, 42892, 1, 1⟩, ⟨42893, 613, 1, 1⟩, ⟨42896, 42897, 2, 2⟩, ⟨42902, 42903, 10, 2⟩,
  ⟨42922, 614, 1, 1⟩, ⟨42923, 604, 1, 1⟩, ⟨42924, 609, 1, 1⟩, ⟨42925, 620, 1, 1⟩, ⟨42926, 618, 1, 1⟩,
  ⟨42928, 670, 1, 1⟩, ⟨42929, 647, 1, 1⟩, ⟨42930, 669, 1, 1⟩, ⟨42931, 43859, 1, 1⟩, ⟨42932, 42933, 8, 2⟩,
  ⟨42948, 42900, 1, 1⟩, ⟨42949, 642, 1, 1⟩, ⟨42950, 7566, 1, 1⟩, ⟨42951, 42952, 2, 2⟩, ⟨42960, 42961, 1, 1⟩,
  ⟨42966, 42967, 2, 2⟩, ⟨42997, 42998, 1, 1⟩, ⟨65313, 65345, 26, 1⟩, ⟨66560, 66600, 40, 1⟩, ⟨66736, 66776, 36, 1⟩,
  ⟨66928, 66967, 19, 2⟩, ⟨66929, 66968, 5, 2⟩, ⟨66941, 66980, 7, 2⟩, ⟨66957, 66996, 3, 2⟩, ⟨66965, 67004, 1, 1⟩,
  ⟨68736, 68800, 51, 1⟩, ⟨71840, 71872, 32, 1⟩, ⟨93760, 93792, 32, 1⟩, ⟨125184, 125218, 34, 1⟩]

def otherSmall : List Run := [
  ⟨452, 454, 3, 3⟩, ⟨497, 499, 1, 1⟩, ⟨1012, 952, 1, 1⟩, ⟨7312, 4304, 43, 1⟩, ⟨7357, 4349, 3, 1⟩,
  ⟨7838, 223, 1, 1⟩, ⟨8486, 969, 1, 1⟩, ⟨8490, 107, 1, 1⟩, ⟨8491, 229, 1, 1⟩]

def otherTitles : List Run := [
  ⟨181, 924, 1, 1⟩, ⟨305, 73, 1, 1⟩, ⟨383, 83, 1, 1⟩, ⟨452, 453, 3, 3⟩, ⟨497, 498, 1, 1⟩, ⟨837, 921, 1, 1⟩,
  ⟨962, 931, 1, 1⟩, ⟨976, 914, 1, 1⟩, ⟨977, 920, 1, 1⟩, ⟨981, 934, 1, 1⟩, ⟨982, 928, 1, 1⟩, ⟨1008, 922, 1, 1⟩,
  ⟨1009, 929, 1, 1⟩, ⟨1013, 917, 1, 1⟩, ⟨7296, 1042, 1, 1⟩, ⟨7297, 1044, 1, 1⟩, ⟨7298, 1054, 1, 1⟩,
  ⟨7299, 1057, 2, 1⟩, ⟨7301, 1058, 1, 1⟩, ⟨7302, 1066, 1, 1⟩, ⟨7303, 1122, 1, 1⟩, ⟨7304, 42570, 1, 1⟩,
  ⟨7835, 7776, 1, 1⟩, ⟨8126, 921, 1, 1⟩]

def longTitles : List (Nat × List Nat) := [
  (223, [83, 115]), (329, [700, 78]), (496, [74, 780]), (912, [921, 776, 769]), (944, [933, 776, 769]),
  (1415, [1333, 1410]), (7830, [72, 817]), (7831, [84, 776]), (7832, [87, 778]), (7833, [89, 778]),
  (7834, [65, 702]), (8016, [933, 787]), (8018, [933, 787, 768]), (8020, [933, 787, 769]), (8022, [933, 787, 834]),
  (8114, [8122, 837]), (8116, [902, 837]), (8118, [913, 834]), (8119, [913, 834, 837]), (8130, [8138, 837]),
  (8132, [905, 837]), (8134, [919, 834]), (8135, [919, 834, 837]), (8146, [921, 776, 768]),
  (8147, [921, 776, 769]), (8150, [921, 834]), (8151, [921, 776, 834]), (8162, [933, 776, 768]),
  (8163, [933, 776, 769]), (8164, [929, 787]), (8166, [933, 834]), (8167, [933, 776, 834]), (8178, [8186, 837]),
  (8180, [911, 837]), (8182, [937, 834]), (8183, [937, 834, 837]), (64256, [70, 102]), (64257, [70, 105]),
  (64258, [70, 108]), (64259, [70, 102, 105]), (64260, [70, 102, 108]), (64261, [83, 116]), (64262, [83, 116]),
  (64275, [1348, 1398]), (64276, [1348, 1381]), (64277, [1348, 1387]), (64278, [1358, 1398]),
  (64279, [1348, 1389])]

def formIn (runs : List Run) (c : Char) : Char :=
  ((runs.findSome? (·.form? c.toNat)).map Char.ofNat).getD c

def smallForm (c : Char) : List Char :=
  if c.toNat < 0x80 then [if isCapital c then Char.ofNat (c.toNat + 32) else c]
  else if c.toNat = 0x130 then ['i', '\u0307']
  else [formIn (capitals ++ otherSmall) c]

def titleForm (c : Char) : List Char :=
  if c.toNat < 0x80 then [if isSmall c then Char.ofNat (c.toNat - 32) else c]
  else
    match longTitles.find? (·.1 == c.toNat) with
    | some (_, form) => form.map Char.ofNat
    | none => [formIn (capitals.map Run.swap ++ otherTitles) c]

/-- Whether the place `n` lies in one of the spans whose lengths stand by turns with those of the gaps before them. -/
def inSpans : Bool → List Nat → Nat → Bool
  | _, [], _ => false
  | inside, k :: ks, n => if n < k then inside else inSpans (!inside) ks (n - k)

def casedSpans : List Nat := [
  65, 26, 6, 26, 47, 1, 10, 1, 4, 1, 5, 23, 1, 31, 1, 195, 1, 4, 4, 208, 1, 36, 7, 2, 30, 5, 96, 1, 42, 4, 2, 2, 2,
  4, 1, 1, 6, 1, 1, 3, 1, 1, 1, 20, 1, 83, 1, 139, 8, 166, 1, 38, 9, 41, 2839, 38, 1, 1, 5, 1, 2, 43, 2, 3, 672,
  86, 2, 6, 2178, 9, 7, 43, 2, 3, 64, 192, 64, 278, 2, 6, 2, 38, 2, 6, 2, 8, 1, 1, 1, 1, 1, 1, 1, 31, 2, 53, 1, 7,
  1, 1, 3, 3, 1, 7, 3, 4, 2, 6, 4, 13, 5, 3, 1, 7, 116, 1, 13, 1, 16, 13, 101, 1, 4, 1, 2, 10, 1, 1, 3, 5, 6, 1, 1,
  1, 1, 1, 1, 4, 1, 6, 4, 1, 2, 4, 5, 5, 4, 1, 17, 32, 3, 2, 817, 52, 1814, 229, 6, 4, 3, 2, 12, 38, 1, 1, 5, 1,
  30994, 46, 18, 30, 132, 102, 3, 4, 1, 59, 5, 2, 1, 1, 1, 5, 27, 2, 1, 3, 821, 43, 1, 13, 7, 80, 20288, 7, 12, 5,
  1033, 26, 6, 26, 1189, 80, 96, 36, 4, 36, 116, 11, 1, 15, 1, 7, 1, 2, 1, 11, 1, 15, 1, 7, 1, 2, 451, 1, 2, 3, 1,
  42, 1, 9, 1221, 51, 13, 51, 2989, 64, 21856, 64, 25984, 85, 1, 71, 1, 2, 2, 1, 2, 2, 2, 4, 1, 12, 1, 1, 1, 7, 1,
  65, 1, 4, 2, 8, 1, 7, 1, 28, 1, 4, 1, 5, 1, 1, 3, 7, 1, 340, 2, 25, 1, 25, 1, 31, 1, 25, 1, 31, 1, 25, 1, 31, 1,
  25, 1, 31, 1, 25, 1, 8, 1844, 10, 1, 20, 2529, 68, 2028, 26, 6, 26, 6, 26]

/-- Letters that have a case, also those with one form only. -/
def isCased (c : Char) : Bool := inSpans false casedSpans c.toNat

/-- Marks that stand inside of words and are passed over where the neighbours of a letter count. -/
def marks : List Nat := [
  39, 1, 6, 1, 11, 1, 35, 1, 1, 1, 71, 1, 4, 1, 1, 1, 4, 1, 2, 2, 503, 192, 4, 2, 4, 1, 9, 2, 1, 1, 251, 7, 207, 1,
  5, 1, 49, 45, 1, 1, 1, 2, 1, 2, 1, 1, 44, 1, 11, 6, 10, 11, 1, 1, 35, 1, 10, 21, 16, 1, 101, 8, 1, 10, 1, 4, 33,
  1, 1, 1, 30, 27, 91, 11, 58, 11, 4, 1, 2, 1, 24, 24, 43, 3, 44, 1, 7, 2, 6, 8, 41, 58, 55, 1, 1, 1, 4, 8, 4, 1,
  3, 7, 10, 2, 13, 1, 15, 1, 58, 1, 4, 4, 8, 1, 20, 2, 26, 1, 2, 2, 57, 1, 4, 2, 4, 2, 2, 3, 3, 1, 30, 2, 3, 1, 11,
  2, 57, 1, 4, 5, 1, 2, 4, 1, 20, 2, 22, 6, 1, 1, 58, 1, 2, 1, 1, 4, 8, 1, 7, 2, 11, 2, 30, 1, 61, 1, 12, 1, 50, 1,
  3, 1, 55, 1, 1, 3, 5, 3, 1, 4, 7, 2, 11, 2, 29, 1, 58, 1, 2, 1, 6, 1, 5, 2, 20, 2, 28, 2, 57, 2, 4, 4, 8, 1, 20,
  2, 29, 1, 72, 1, 7, 3, 1, 1, 90, 1, 2, 7, 11, 9, 98, 1, 2, 9, 9, 1, 1, 6, 74, 2, 27, 1, 1, 1, 1, 1, 55, 14, 1, 5,
  1, 2, 5, 11, 1, 36, 9, 1, 102, 4, 1, 6, 1, 2, 2, 2, 25, 2, 4, 3, 16, 4, 13, 1, 2, 2, 6, 1, 15, 1, 94, 1, 608, 3,
  946, 3, 29, 2, 30, 2, 30, 2, 64, 2, 1, 7, 8, 1, 2, 11, 3, 1, 5, 1, 45, 5, 51, 1, 65, 2, 34, 1, 118, 3, 4, 2, 9,
  1, 6, 3, 219, 2, 2, 1, 58, 1, 1, 7, 1, 1, 1, 1, 2, 8, 6, 10, 2, 1, 39, 1, 8, 31, 49, 4, 48, 1, 1, 5, 1, 1, 5, 1,
  40, 9, 12, 2, 32, 4, 2, 2, 1, 3, 56, 1, 1, 2, 3, 1, 1, 3, 58, 8, 2, 2, 64, 6, 82, 3, 1, 13, 1, 7, 4, 1, 6, 1, 3,
  2, 50, 63, 13, 1, 34, 101, 445, 1, 1, 3, 11, 3, 13, 3, 13, 3, 13, 2, 12, 5, 8, 2, 10, 1, 2, 1, 2, 5, 49, 5, 1,
  10, 1, 1, 13, 1, 16, 13, 51, 33, 2955, 2, 113, 3, 125, 1, 15, 1, 96, 32, 47, 1, 469, 1, 36, 4, 3, 5, 5, 1, 93, 6,
  93, 3, 28438, 1, 1250, 6, 270, 1, 98, 4, 1, 10, 1, 1, 28, 4, 80, 2, 14, 34, 78, 1, 23, 3, 103, 3, 3, 2, 8, 1, 3,
  1, 4, 1, 25, 2, 5, 1, 151, 2, 26, 18, 13, 1, 38, 8, 25, 11, 46, 3, 48, 1, 2, 4, 2, 2, 17, 1, 21, 2, 66, 6, 2, 2,
  2, 2, 12, 1, 8, 1, 35, 1, 11, 1, 51, 1, 1, 3, 2, 2, 5, 2, 1, 1, 27, 1, 14, 2, 5, 2, 1, 1, 100, 5, 9, 3, 121, 1,
  2, 1, 4, 1, 20272, 1, 147, 17, 573, 16, 3, 1, 12, 16, 34, 1, 2, 1, 169, 1, 7, 1, 6, 1, 11, 1, 35, 1, 1, 1, 47, 1,
  45, 2, 67, 1, 21, 3, 513, 1, 226, 1, 149, 5, 1029, 6, 1, 42, 1, 9, 582, 3, 1, 2, 5, 4, 40, 3, 4, 1, 165, 2, 573,
  4, 387, 2, 153, 11, 49, 4, 123, 1, 54, 15, 41, 1, 2, 2, 10, 3, 49, 4, 2, 2, 2, 1, 4, 1, 10, 1, 50, 3, 36, 5, 1,
  8, 62, 1, 12, 2, 52, 9, 10, 4, 2, 1, 95, 3, 2, 1, 1, 2, 6, 1, 160, 1, 3, 8, 21, 2, 57, 2, 3, 1, 37, 7, 3, 5, 195,
  8, 2, 3, 1, 1, 23, 1, 84, 6, 1, 1, 4, 2, 1, 2, 238, 4, 6, 2, 1, 2, 27, 2, 85, 8, 2, 1, 1, 2, 106, 1, 1, 1, 2, 6,
  1, 1, 101, 3, 2, 4, 1, 5, 259, 9, 1, 2, 256, 2, 1, 1, 4, 1, 144, 4, 2, 2, 4, 1, 32, 10, 40, 6, 2, 4, 8, 1, 9, 6,
  2, 3, 46, 13, 1, 2, 406, 7, 1, 6, 1, 1, 82, 22, 2, 7, 1, 2, 1, 2, 122, 6, 3, 1, 1, 2, 1, 7, 1, 1, 72, 2, 3, 1, 1,
  1, 347, 2, 5435, 9, 14007, 5, 59, 7, 9, 4, 1035, 1, 63, 17, 64, 2, 1, 2, 16395, 4, 1, 7, 1, 2, 3230, 2, 1, 4,
  4700, 46, 2, 23, 544, 3, 9, 16, 2, 7, 30, 4, 148, 3, 1979, 55, 4, 50, 8, 1, 14, 1, 22, 5, 1, 15, 1360, 7, 1, 17,
  2, 7, 1, 2, 1, 5, 261, 14, 368, 1, 61, 4, 1504, 7, 109, 8, 2735, 5, 789505, 1, 30, 96, 128, 240]

/-- The first character that is no mark has a case. -/
def meetsCased (cs : List Char) : Bool :=
  (cs.dropWhile fun c => inSpans false marks c.toNat).head?.any isCased

/-- The small form of a character between others, those before it in reverse. A sigma that ends a word has a form of
its own. -/
def smallAt (before : List Char) (c : Char) (after : List Char) : List Char :=
  if c = 'Σ' then [if meetsCased before && !meetsCased after then 'ς' else 'σ'] else smallForm c

def lowerFrom (before : List Char) : List Char → List Char
  | [] => []
  | c :: r => smallAt before c r ++ lowerFrom (c :: before) r

def lower (s : String) : String := String.ofList (lowerFrom [] s.toList)

/-- Behind a letter stands a small form, and elsewhere a title form. -/
def titleFrom (before : List Char) : List Char → List Char
  | [] => []
  | c :: r => (if before.head?.any isCased then smallAt before c r else titleForm c) ++ titleFrom (c :: before) r

def title (s : String) : String := String.ofList (titleFrom [] s.toList)

end NetBridge.Text
