import Mathlib.Data.List.Basic
import Mathlib.Data.Int.Basic

/-! # The case of letters

The simple case mappings of Unicode 15, which take one letter to one letter, as tables of runs:
the letters of a run stand next to each other, or every second one does, and they are mapped to
letters that stand the same way.  The letters of ASCII are mapped without the tables.

Mapping to small letters twice is mapping once (`toLower_toLower`): no letter that a run is
mapped to stands in a run, which is seen from the ends of the runs (`CaseRange.apart`).  It is
not so that letters with one capital have one small letter, since some have a capital and are
the small letter of none.  Letters that differ in their case only are those with one `fold`.
-/
namespace LetterCase

/-! ## The tables -/

/-- The letters with the codes `lo`, `lo + stride` and so on up to `hi`, mapped to those from
`target` on. -/
structure CaseRange where
  lo : ℕ
  hi : ℕ
  stride : ℕ
  target : ℕ

/-- The letters outside ASCII that have a small letter. -/
def lowerRanges : List CaseRange :=
  [⟨192, 214, 1, 224⟩, ⟨216, 222, 1, 248⟩, ⟨256, 302, 2, 257⟩, ⟨304, 304, 1, 105⟩,
   ⟨306, 310, 2, 307⟩, ⟨313, 327, 2, 314⟩, ⟨330, 374, 2, 331⟩, ⟨376, 376, 1, 255⟩,
   ⟨377, 381, 2, 378⟩, ⟨385, 385, 1, 595⟩, ⟨386, 388, 2, 387⟩, ⟨390, 390, 1, 596⟩,
   ⟨391, 391, 1, 392⟩, ⟨393, 394, 1, 598⟩, ⟨395, 395, 1, 396⟩, ⟨398, 398, 1, 477⟩,
   ⟨399, 399, 1, 601⟩, ⟨400, 400, 1, 603⟩, ⟨401, 401, 1, 402⟩, ⟨403, 403, 1, 608⟩,
   ⟨404, 404, 1, 611⟩, ⟨406, 406, 1, 617⟩, ⟨407, 407, 1, 616⟩, ⟨408, 408, 1, 409⟩,
   ⟨412, 412, 1, 623⟩, ⟨413, 413, 1, 626⟩, ⟨415, 415, 1, 629⟩, ⟨416, 420, 2, 417⟩,
   ⟨422, 422, 1, 640⟩, ⟨423, 423, 1, 424⟩, ⟨425, 425, 1, 643⟩, ⟨428, 428, 1, 429⟩,
   ⟨430, 430, 1, 648⟩, ⟨431, 431, 1, 432⟩, ⟨433, 434, 1, 650⟩, ⟨435, 437, 2, 436⟩,
   ⟨439, 439, 1, 658⟩, ⟨440, 440, 1, 441⟩, ⟨444, 444, 1, 445⟩, ⟨452, 452, 1, 454⟩,
   ⟨453, 453, 1, 454⟩, ⟨455, 455, 1, 457⟩, ⟨456, 456, 1, 457⟩, ⟨458, 458, 1, 460⟩,
   ⟨459, 475, 2, 460⟩, ⟨478, 494, 2, 479⟩, ⟨497, 497, 1, 499⟩, ⟨498, 500, 2, 499⟩,
   ⟨502, 502, 1, 405⟩, ⟨503, 503, 1, 447⟩, ⟨504, 542, 2, 505⟩, ⟨544, 544, 1, 414⟩,
   ⟨546, 562, 2, 547⟩, ⟨570, 570, 1, 11365⟩, ⟨571, 571, 1, 572⟩, ⟨573, 573, 1, 410⟩,
   ⟨574, 574, 1, 11366⟩, ⟨577, 577, 1, 578⟩, ⟨579, 579, 1, 384⟩, ⟨580, 580, 1, 649⟩,
   ⟨581, 581, 1, 652⟩, ⟨582, 590, 2, 583⟩, ⟨880, 882, 2, 881⟩, ⟨886, 886, 1, 887⟩,
   ⟨895, 895, 1, 1011⟩, ⟨902, 902, 1, 940⟩, ⟨904, 906, 1, 941⟩, ⟨908, 908, 1, 972⟩,
   ⟨910, 911, 1, 973⟩, ⟨913, 929, 1, 945⟩, ⟨931, 939, 1, 963⟩, ⟨975, 975, 1, 983⟩,
   ⟨984, 1006, 2, 985⟩, ⟨1012, 1012, 1, 952⟩, ⟨1015, 1015, 1, 1016⟩, ⟨1017, 1017, 1, 1010⟩,
   ⟨1018, 1018, 1, 1019⟩, ⟨1021, 1023, 1, 891⟩, ⟨1024, 1039, 1, 1104⟩, ⟨1040, 1071, 1, 1072⟩,
   ⟨1120, 1152, 2, 1121⟩, ⟨1162, 1214, 2, 1163⟩, ⟨1216, 1216, 1, 1231⟩, ⟨1217, 1229, 2, 1218⟩,
   ⟨1232, 1326, 2, 1233⟩, ⟨1329, 1366, 1, 1377⟩, ⟨4256, 4293, 1, 11520⟩, ⟨4295, 4295, 1, 11559⟩,
   ⟨4301, 4301, 1, 11565⟩, ⟨5024, 5103, 1, 43888⟩, ⟨5104, 5109, 1, 5112⟩, ⟨7312, 7354, 1, 4304⟩,
   ⟨7357, 7359, 1, 4349⟩, ⟨7680, 7828, 2, 7681⟩, ⟨7838, 7838, 1, 223⟩, ⟨7840, 7934, 2, 7841⟩,
   ⟨7944, 7951, 1, 7936⟩, ⟨7960, 7965, 1, 7952⟩, ⟨7976, 7983, 1, 7968⟩, ⟨7992, 7999, 1, 7984⟩,
   ⟨8008, 8013, 1, 8000⟩, ⟨8025, 8031, 2, 8017⟩, ⟨8040, 8047, 1, 8032⟩, ⟨8072, 8079, 1, 8064⟩,
   ⟨8088, 8095, 1, 8080⟩, ⟨8104, 8111, 1, 8096⟩, ⟨8120, 8121, 1, 8112⟩, ⟨8122, 8123, 1, 8048⟩,
   ⟨8124, 8124, 1, 8115⟩, ⟨8136, 8139, 1, 8050⟩, ⟨8140, 8140, 1, 8131⟩, ⟨8152, 8153, 1, 8144⟩,
   ⟨8154, 8155, 1, 8054⟩, ⟨8168, 8169, 1, 8160⟩, ⟨8170, 8171, 1, 8058⟩, ⟨8172, 8172, 1, 8165⟩,
   ⟨8184, 8185, 1, 8056⟩, ⟨8186, 8187, 1, 8060⟩, ⟨8188, 8188, 1, 8179⟩, ⟨8486, 8486, 1, 969⟩,
   ⟨8490, 8490, 1, 107⟩, ⟨8491, 8491, 1, 229⟩, ⟨8498, 8498, 1, 8526⟩, ⟨8544, 8559, 1, 8560⟩,
   ⟨8579, 8579, 1, 8580⟩, ⟨9398, 9423, 1, 9424⟩, ⟨11264, 11311, 1, 11312⟩,
   ⟨11360, 11360, 1, 11361⟩, ⟨11362, 11362, 1, 619⟩, ⟨11363, 11363, 1, 7549⟩,
   ⟨11364, 11364, 1, 637⟩, ⟨11367, 11371, 2, 11368⟩, ⟨11373, 11373, 1, 593⟩,
   ⟨11374, 11374, 1, 625⟩, ⟨11375, 11375, 1, 592⟩, ⟨11376, 11376, 1, 594⟩,
   ⟨11378, 11378, 1, 11379⟩, ⟨11381, 11381, 1, 11382⟩, ⟨11390, 11391, 1, 575⟩,
   ⟨11392, 11490, 2, 11393⟩, ⟨11499, 11501, 2, 11500⟩, ⟨11506, 11506, 1, 11507⟩,
   ⟨42560, 42604, 2, 42561⟩, ⟨42624, 42650, 2, 42625⟩, ⟨42786, 42798, 2, 42787⟩,
   ⟨42802, 42862, 2, 42803⟩, ⟨42873, 42875, 2, 42874⟩, ⟨42877, 42877, 1, 7545⟩,
   ⟨42878, 42886, 2, 42879⟩, ⟨42891, 42891, 1, 42892⟩, ⟨42893, 42893, 1, 613⟩,
   ⟨42896, 42898, 2, 42897⟩, ⟨42902, 42920, 2, 42903⟩, ⟨42922, 42922, 1, 614⟩,
   ⟨42923, 42923, 1, 604⟩, ⟨42924, 42924, 1, 609⟩, ⟨42925, 42925, 1, 620⟩, ⟨42926, 42926, 1, 618⟩,
   ⟨42928, 42928, 1, 670⟩, ⟨42929, 42929, 1, 647⟩, ⟨42930, 42930, 1, 669⟩,
   ⟨42931, 42931, 1, 43859⟩, ⟨42932, 42946, 2, 42933⟩, ⟨42948, 42948, 1, 42900⟩,
   ⟨42949, 42949, 1, 642⟩, ⟨42950, 42950, 1, 7566⟩, ⟨42951, 42953, 2, 42952⟩,
   ⟨42960, 42960, 1, 42961⟩, ⟨42966, 42968, 2, 42967⟩, ⟨42997, 42997, 1, 42998⟩,
   ⟨65313, 65338, 1, 65345⟩, ⟨66560, 66599, 1, 66600⟩, ⟨66736, 66771, 1, 66776⟩,
   ⟨66928, 66938, 1, 66967⟩, ⟨66940, 66954, 1, 66979⟩, ⟨66956, 66962, 1, 66995⟩,
   ⟨66964, 66965, 1, 67003⟩, ⟨68736, 68786, 1, 68800⟩, ⟨71840, 71871, 1, 71872⟩,
   ⟨93760, 93791, 1, 93792⟩, ⟨125184, 125217, 1, 125218⟩]

/-- The letters outside ASCII that have a capital. -/
def upperRanges : List CaseRange :=
  [⟨181, 181, 1, 924⟩, ⟨224, 246, 1, 192⟩, ⟨248, 254, 1, 216⟩, ⟨255, 255, 1, 376⟩,
   ⟨257, 303, 2, 256⟩, ⟨305, 305, 1, 73⟩, ⟨307, 311, 2, 306⟩, ⟨314, 328, 2, 313⟩,
   ⟨331, 375, 2, 330⟩, ⟨378, 382, 2, 377⟩, ⟨383, 383, 1, 83⟩, ⟨384, 384, 1, 579⟩,
   ⟨387, 389, 2, 386⟩, ⟨392, 392, 1, 391⟩, ⟨396, 396, 1, 395⟩, ⟨402, 402, 1, 401⟩,
   ⟨405, 405, 1, 502⟩, ⟨409, 409, 1, 408⟩, ⟨410, 410, 1, 573⟩, ⟨414, 414, 1, 544⟩,
   ⟨417, 421, 2, 416⟩, ⟨424, 424, 1, 423⟩, ⟨429, 429, 1, 428⟩, ⟨432, 432, 1, 431⟩,
   ⟨436, 438, 2, 435⟩, ⟨441, 441, 1, 440⟩, ⟨445, 445, 1, 444⟩, ⟨447, 447, 1, 503⟩,
   ⟨453, 453, 1, 452⟩, ⟨454, 454, 1, 452⟩, ⟨456, 456, 1, 455⟩, ⟨457, 457, 1, 455⟩,
   ⟨459, 459, 1, 458⟩, ⟨460, 460, 1, 458⟩, ⟨462, 476, 2, 461⟩, ⟨477, 477, 1, 398⟩,
   ⟨479, 495, 2, 478⟩, ⟨498, 498, 1, 497⟩, ⟨499, 499, 1, 497⟩, ⟨501, 501, 1, 500⟩,
   ⟨505, 543, 2, 504⟩, ⟨547, 563, 2, 546⟩, ⟨572, 572, 1, 571⟩, ⟨575, 576, 1, 11390⟩,
   ⟨578, 578, 1, 577⟩, ⟨583, 591, 2, 582⟩, ⟨592, 592, 1, 11375⟩, ⟨593, 593, 1, 11373⟩,
   ⟨594, 594, 1, 11376⟩, ⟨595, 595, 1, 385⟩, ⟨596, 596, 1, 390⟩, ⟨598, 599, 1, 393⟩,
   ⟨601, 601, 1, 399⟩, ⟨603, 603, 1, 400⟩, ⟨604, 604, 1, 42923⟩, ⟨608, 608, 1, 403⟩,
   ⟨609, 609, 1, 42924⟩, ⟨611, 611, 1, 404⟩, ⟨613, 613, 1, 42893⟩, ⟨614, 614, 1, 42922⟩,
   ⟨616, 616, 1, 407⟩, ⟨617, 617, 1, 406⟩, ⟨618, 618, 1, 42926⟩, ⟨619, 619, 1, 11362⟩,
   ⟨620, 620, 1, 42925⟩, ⟨623, 623, 1, 412⟩, ⟨625, 625, 1, 11374⟩, ⟨626, 626, 1, 413⟩,
   ⟨629, 629, 1, 415⟩, ⟨637, 637, 1, 11364⟩, ⟨640, 640, 1, 422⟩, ⟨642, 642, 1, 42949⟩,
   ⟨643, 643, 1, 425⟩, ⟨647, 647, 1, 42929⟩, ⟨648, 648, 1, 430⟩, ⟨649, 649, 1, 580⟩,
   ⟨650, 651, 1, 433⟩, ⟨652, 652, 1, 581⟩, ⟨658, 658, 1, 439⟩, ⟨669, 669, 1, 42930⟩,
   ⟨670, 670, 1, 42928⟩, ⟨837, 837, 1, 921⟩, ⟨881, 883, 2, 880⟩, ⟨887, 887, 1, 886⟩,
   ⟨891, 893, 1, 1021⟩, ⟨940, 940, 1, 902⟩, ⟨941, 943, 1, 904⟩, ⟨945, 961, 1, 913⟩,
   ⟨962, 962, 1, 931⟩, ⟨963, 971, 1, 931⟩, ⟨972, 972, 1, 908⟩, ⟨973, 974, 1, 910⟩,
   ⟨976, 976, 1, 914⟩, ⟨977, 977, 1, 920⟩, ⟨981, 981, 1, 934⟩, ⟨982, 982, 1, 928⟩,
   ⟨983, 983, 1, 975⟩, ⟨985, 1007, 2, 984⟩, ⟨1008, 1008, 1, 922⟩, ⟨1009, 1009, 1, 929⟩,
   ⟨1010, 1010, 1, 1017⟩, ⟨1011, 1011, 1, 895⟩, ⟨1013, 1013, 1, 917⟩, ⟨1016, 1016, 1, 1015⟩,
   ⟨1019, 1019, 1, 1018⟩, ⟨1072, 1103, 1, 1040⟩, ⟨1104, 1119, 1, 1024⟩, ⟨1121, 1153, 2, 1120⟩,
   ⟨1163, 1215, 2, 1162⟩, ⟨1218, 1230, 2, 1217⟩, ⟨1231, 1231, 1, 1216⟩, ⟨1233, 1327, 2, 1232⟩,
   ⟨1377, 1414, 1, 1329⟩, ⟨4304, 4346, 1, 7312⟩, ⟨4349, 4351, 1, 7357⟩, ⟨5112, 5117, 1, 5104⟩,
   ⟨7296, 7296, 1, 1042⟩, ⟨7297, 7297, 1, 1044⟩, ⟨7298, 7298, 1, 1054⟩, ⟨7299, 7300, 1, 1057⟩,
   ⟨7301, 7301, 1, 1058⟩, ⟨7302, 7302, 1, 1066⟩, ⟨7303, 7303, 1, 1122⟩, ⟨7304, 7304, 1, 42570⟩,
   ⟨7545, 7545, 1, 42877⟩, ⟨7549, 7549, 1, 11363⟩, ⟨7566, 7566, 1, 42950⟩, ⟨7681, 7829, 2, 7680⟩,
   ⟨7835, 7835, 1, 7776⟩, ⟨7841, 7935, 2, 7840⟩, ⟨7936, 7943, 1, 7944⟩, ⟨7952, 7957, 1, 7960⟩,
   ⟨7968, 7975, 1, 7976⟩, ⟨7984, 7991, 1, 7992⟩, ⟨8000, 8005, 1, 8008⟩, ⟨8017, 8023, 2, 8025⟩,
   ⟨8032, 8039, 1, 8040⟩, ⟨8048, 8049, 1, 8122⟩, ⟨8050, 8053, 1, 8136⟩, ⟨8054, 8055, 1, 8154⟩,
   ⟨8056, 8057, 1, 8184⟩, ⟨8058, 8059, 1, 8170⟩, ⟨8060, 8061, 1, 8186⟩, ⟨8064, 8071, 1, 8072⟩,
   ⟨8080, 8087, 1, 8088⟩, ⟨8096, 8103, 1, 8104⟩, ⟨8112, 8113, 1, 8120⟩, ⟨8115, 8115, 1, 8124⟩,
   ⟨8126, 8126, 1, 921⟩, ⟨8131, 8131, 1, 8140⟩, ⟨8144, 8145, 1, 8152⟩, ⟨8160, 8161, 1, 8168⟩,
   ⟨8165, 8165, 1, 8172⟩, ⟨8179, 8179, 1, 8188⟩, ⟨8526, 8526, 1, 8498⟩, ⟨8560, 8575, 1, 8544⟩,
   ⟨8580, 8580, 1, 8579⟩, ⟨9424, 9449, 1, 9398⟩, ⟨11312, 11359, 1, 11264⟩,
   ⟨11361, 11361, 1, 11360⟩, ⟨11365, 11365, 1, 570⟩, ⟨11366, 11366, 1, 574⟩,
   ⟨11368, 11372, 2, 11367⟩, ⟨11379, 11379, 1, 11378⟩, ⟨11382, 11382, 1, 11381⟩,
   ⟨11393, 11491, 2, 11392⟩, ⟨11500, 11502, 2, 11499⟩, ⟨11507, 11507, 1, 11506⟩,
   ⟨11520, 11557, 1, 4256⟩, ⟨11559, 11559, 1, 4295⟩, ⟨11565, 11565, 1, 4301⟩,
   ⟨42561, 42605, 2, 42560⟩, ⟨42625, 42651, 2, 42624⟩, ⟨42787, 42799, 2, 42786⟩,
   ⟨42803, 42863, 2, 42802⟩, ⟨42874, 42876, 2, 42873⟩, ⟨42879, 42887, 2, 42878⟩,
   ⟨42892, 42892, 1, 42891⟩, ⟨42897, 42899, 2, 42896⟩, ⟨42900, 42900, 1, 42948⟩,
   ⟨42903, 42921, 2, 42902⟩, ⟨42933, 42947, 2, 42932⟩, ⟨42952, 42954, 2, 42951⟩,
   ⟨42961, 42961, 1, 42960⟩, ⟨42967, 42969, 2, 42966⟩, ⟨42998, 42998, 1, 42997⟩,
   ⟨43859, 43859, 1, 42931⟩, ⟨43888, 43967, 1, 5024⟩, ⟨65345, 65370, 1, 65313⟩,
   ⟨66600, 66639, 1, 66560⟩, ⟨66776, 66811, 1, 66736⟩, ⟨66967, 66977, 1, 66928⟩,
   ⟨66979, 66993, 1, 66940⟩, ⟨66995, 67001, 1, 66956⟩, ⟨67003, 67004, 1, 66964⟩,
   ⟨68800, 68850, 1, 68736⟩, ⟨71872, 71903, 1, 71840⟩, ⟨93792, 93823, 1, 93760⟩,
   ⟨125218, 125251, 1, 125184⟩]

/-! ## Mappings of codes -/

namespace CaseRange

def covers (r : CaseRange) (n : ℕ) : Bool :=
  Nat.ble r.lo n && Nat.ble n r.hi && Nat.beq ((n - r.lo) % r.stride) 0

/-- The code of the last letter that the run is mapped to. -/
def last (r : CaseRange) : ℕ := r.target + (r.hi - r.lo)

end CaseRange

/-- A code outside the table is mapped to itself. -/
def mapCode (table : List CaseRange) (n : ℕ) : ℕ :=
  match table.find? fun r => r.covers n with
  | some r => r.target + (n - r.lo)
  | none => n

def lowerCode (n : ℕ) : ℕ :=
  if n < 128 then if 65 ≤ n && n ≤ 90 then n + 32 else n else mapCode lowerRanges n

def upperCode (n : ℕ) : ℕ :=
  if n < 128 then if 97 ≤ n && n ≤ 122 then n - 32 else n else mapCode upperRanges n

/-- The small letter of a letter. -/
def toLower (c : Char) : Char := Char.ofNat (lowerCode c.toNat)

/-- The capital of a letter. -/
def toUpper (c : Char) : Char := Char.ofNat (upperCode c.toNat)

/-- What letters that differ in their case only have in common.  The dotted capital and the
dotless small i differ from an i in more than their case. -/
def fold (c : Char) : Char :=
  if c.toNat = 0x130 || c.toNat = 0x131 then c else toLower (toUpper c)

/-- Texts that are the same up to the case of their letters. -/
def equalFold (s t : String) : Bool := s.toList.map fold = t.toList.map fold

/-! ## What a mapping does -/

namespace CaseRange
variable {r r' : CaseRange} {n m : ℕ}

theorem covers_iff : r.covers n = true ↔
    r.lo ≤ n ∧ n ≤ r.hi ∧ (n - r.lo) % r.stride = 0 := by
  simp only [covers, Bool.and_eq_true, Nat.ble_eq, Nat.beq_eq, and_assoc]

/-- The letters that a run is mapped to stand in no run `r'`: they come before it or after it, or
both are every second letter, in turns. -/
def apart (r r' : CaseRange) : Bool :=
  Nat.blt r.last r'.lo || Nat.blt r'.hi r.target ||
    (Nat.beq r'.stride 2 && (Nat.beq r.stride 2 || Nat.beq r.lo r.hi) &&
      !Nat.beq (r.target % 2) (r'.lo % 2))

theorem not_covers_of_apart (h : r.apart r' = true) (hn : r.covers n = true) :
    r'.covers (r.target + (n - r.lo)) = false := by
  obtain ⟨hlo, hhi, hmod⟩ := covers_iff.mp hn
  simp only [apart, Nat.blt_eq, Nat.beq_eq, Bool.or_eq_true, Bool.and_eq_true, Bool.not_eq_true',
    last] at h
  rw [Bool.eq_false_iff]
  intro hc
  obtain ⟨hlo', hhi', hmod'⟩ := covers_iff.mp hc
  rcases h with (h | h) | ⟨⟨hstride', hstride⟩, hturn⟩
  · omega
  · omega
  · have hturn' : r.target % 2 ≠ r'.lo % 2 := by
      intro he
      rw [he, Nat.beq_refl] at hturn
      cases hturn
    rw [hstride'] at hmod'
    rcases hstride with hstride | hone
    · rw [hstride] at hmod
      omega
    · omega

/-- The codes from `a` to `b` are neither in the run nor what it is mapped to. -/
def misses (r : CaseRange) (a b : ℕ) : Bool :=
  (Nat.blt r.hi a || Nat.blt b r.lo) && (Nat.blt r.last a || Nat.blt b r.target)

theorem misses_mono {a b a' b' : ℕ} (ha : a ≤ a') (hb : b' ≤ b) (h : r.misses a b = true) :
    r.misses a' b' = true := by
  simp only [misses, Bool.and_eq_true, Bool.or_eq_true, Nat.blt_eq] at h ⊢
  omega

/-- The letters that a run is mapped to are characters. -/
def valid (r : CaseRange) : Bool :=
  Nat.blt r.last 0xd800 || (Nat.blt 0xdfff r.target && Nat.blt r.last 0x110000)

end CaseRange

section MapCode
variable {table : List CaseRange} {n : ℕ}

/-- **A code is mapped to itself**, or by a run of the table that it stands in. -/
theorem mapCode_cases (table : List CaseRange) (n : ℕ) :
    (mapCode table n = n ∧ ∀ r ∈ table, r.covers n = false) ∨
      ∃ r ∈ table, r.covers n = true ∧ mapCode table n = r.target + (n - r.lo) := by
  unfold mapCode
  cases h : table.find? fun r => r.covers n with
  | none =>
    refine .inl ⟨rfl, ?_⟩
    intro r hr
    exact Bool.eq_false_iff.mpr (List.find?_eq_none.mp h r hr)
  | some r =>
    have hcovers := List.find?_some h
    exact .inr ⟨r, List.mem_of_find?_eq_some h, hcovers, rfl⟩

theorem mapCode_of_not_covers (h : ∀ r ∈ table, r.covers n = false) : mapCode table n = n := by
  rcases mapCode_cases table n with ⟨hself, -⟩ | ⟨r, hr, hcovers, -⟩
  · exact hself
  · rw [h r hr] at hcovers
    cases hcovers

/-- A table whose runs are apart maps no letter on. -/
theorem mapCode_mapCode (h : (table.all fun r => table.all fun r' => r.apart r') = true) (n : ℕ) :
    mapCode table (mapCode table n) = mapCode table n := by
  rcases mapCode_cases table n with ⟨hself, -⟩ | ⟨r, hr, hcovers, hto⟩
  · rw [hself, hself]
  · rw [hto]
    refine mapCode_of_not_covers ?_
    intro r' hr'
    exact CaseRange.not_covers_of_apart
      (List.all_eq_true.mp (List.all_eq_true.mp h r hr) r' hr') hcovers

/-- Codes that all runs miss are mapped among themselves, and no other code to one of them. -/
theorem mapCode_mem_iff {a b : ℕ} (h : (table.all fun r => r.misses a b) = true) :
    (a ≤ mapCode table n ∧ mapCode table n ≤ b) ↔ a ≤ n ∧ n ≤ b := by
  rcases mapCode_cases table n with ⟨hself, -⟩ | ⟨r, hr, hcovers, hto⟩
  · rw [hself]
  · have hmiss := List.all_eq_true.mp h r hr
    simp only [CaseRange.misses, CaseRange.last, Bool.and_eq_true, Bool.or_eq_true,
      Nat.blt_eq] at hmiss
    obtain ⟨hlo, hhi, -⟩ := CaseRange.covers_iff.mp hcovers
    rw [hto]
    omega

theorem mapCode_valid (h : (table.all CaseRange.valid) = true) (hn : n.isValidChar) :
    (mapCode table n).isValidChar := by
  rcases mapCode_cases table n with ⟨hself, -⟩ | ⟨r, hr, hcovers, hto⟩
  · rw [hself]
    exact hn
  · have hvalid := List.all_eq_true.mp h r hr
    simp only [CaseRange.valid, CaseRange.last, Bool.and_eq_true, Bool.or_eq_true,
      Nat.blt_eq] at hvalid
    obtain ⟨hlo, hhi, -⟩ := CaseRange.covers_iff.mp hcovers
    rw [hto]
    unfold Nat.isValidChar
    omega

end MapCode

/-! ## Small letters -/

theorem lowerRanges_apart :
    (lowerRanges.all fun r => lowerRanges.all fun r' => r.apart r') = true := by
  decide +kernel

theorem lowerRanges_valid : (lowerRanges.all CaseRange.valid) = true := by decide +kernel

theorem lowerCode_valid {n : ℕ} (hn : n.isValidChar) : (lowerCode n).isValidChar := by
  unfold lowerCode
  split
  · split
    · exact .inl (by omega)
    · exact hn
  · exact mapCode_valid lowerRanges_valid hn

/-- The two letters outside ASCII whose small letters are in it are mapped no further. -/
theorem lowerCode_lowerCode (n : ℕ) : lowerCode (lowerCode n) = lowerCode n := by
  have hascii : ∀ n < 128, lowerCode (lowerCode n) = lowerCode n := by decide
  by_cases hn : n < 128
  · exact hascii n hn
  · have hmap : lowerCode n = mapCode lowerRanges n := if_neg hn
    by_cases hm : mapCode lowerRanges n < 128
    · rcases mapCode_cases lowerRanges n with ⟨hself, -⟩ | ⟨r, hr, hcovers, hto⟩
      · omega
      · obtain ⟨hlo, hhi, -⟩ := CaseRange.covers_iff.mp hcovers
        have hall : ∀ r ∈ lowerRanges, 128 ≤ r.target ∨
            r.lo = r.hi ∧ lowerCode r.target = r.target := by decide +kernel
        rcases hall r hr with hlarge | ⟨hone, hsmall⟩
        · omega
        · have hcode : lowerCode n = r.target := by
            rw [hmap, hto]
            omega
          rw [hcode, hsmall]
    · rw [hmap]
      exact (if_neg hm).trans (mapCode_mapCode lowerRanges_apart n)

theorem toNat_toLower (c : Char) : (toLower c).toNat = lowerCode c.toNat := by
  have hvalid : (lowerCode c.toNat).isValidChar := lowerCode_valid c.valid
  rw [toLower, Char.ofNat, dif_pos hvalid]
  rfl

/-- **Small letters are their own small letters.** -/
theorem toLower_toLower (c : Char) : toLower (toLower c) = toLower c := by
  rw [toLower, toNat_toLower, lowerCode_lowerCode]
  rfl

/-- The sign of the unit kelvin has the small letter of the letter. -/
example : toLower (Char.ofNat 0x212a) = 'k' := by decide

/-- Codes of no letters are the small letters of no others. -/
theorem lowerCode_mem_iff {n a b : ℕ} (hab : b < 65 ∨ 122 < a)
    (h : (lowerRanges.all fun r => r.misses a b) = true) :
    (a ≤ lowerCode n ∧ lowerCode n ≤ b) ↔ a ≤ n ∧ n ≤ b := by
  unfold lowerCode
  split
  · split
    · rename_i hcap
      simp only [Bool.and_eq_true, decide_eq_true_eq] at hcap
      omega
    · exact Iff.rfl
  · exact mapCode_mem_iff h

/-! ## Capitals -/

theorem upperRanges_valid : (upperRanges.all CaseRange.valid) = true := by decide +kernel

theorem upperCode_valid {n : ℕ} (hn : n.isValidChar) : (upperCode n).isValidChar := by
  unfold upperCode
  split
  · split
    · exact .inl (by omega)
    · exact hn
  · exact mapCode_valid upperRanges_valid hn

theorem toNat_toUpper (c : Char) : (toUpper c).toNat = upperCode c.toNat := by
  have hvalid : (upperCode c.toNat).isValidChar := upperCode_valid c.valid
  rw [toUpper, Char.ofNat, dif_pos hvalid]
  rfl

/-- Codes of no letters are the capitals of no others. -/
theorem upperCode_mem_iff {n a b : ℕ} (hab : b < 65 ∨ 122 < a)
    (h : (upperRanges.all fun r => r.misses a b) = true) :
    (a ≤ upperCode n ∧ upperCode n ≤ b) ↔ a ≤ n ∧ n ≤ b := by
  unfold upperCode
  split
  · split
    · rename_i hsmall
      simp only [Bool.and_eq_true, decide_eq_true_eq] at hsmall
      omega
    · exact Iff.rfl
  · exact mapCode_mem_iff h

/-- A code that no run of the table reaches to is its own capital. -/
theorem toUpper_of_misses {c : Char} (hc : 128 ≤ c.toNat)
    (h : (upperRanges.all fun r => r.misses c.toNat c.toNat) = true) : toUpper c = c := by
  have hcode := (mapCode_mem_iff (n := c.toNat) h).mpr ⟨le_refl _, le_refl _⟩
  have hself : upperCode c.toNat = c.toNat := by
    unfold upperCode
    rw [if_neg (by omega)]
    omega
  rw [toUpper, hself, Char.ofNat_toNat]

/-! ## ASCII -/

/-- In ASCII only the capitals have a small letter other than themselves. -/
theorem toLower_eq_self {c : Char} (h : c.toNat < 128) (hcap : c.toNat < 65 ∨ 90 < c.toNat) :
    toLower c = c := by
  have hcode : lowerCode c.toNat = c.toNat := by
    unfold lowerCode
    rw [if_pos h, if_neg]
    simp only [Bool.and_eq_true, decide_eq_true_eq]
    omega
  rw [toLower, hcode, Char.ofNat_toNat]

theorem toUpper_eq_self {c : Char} (h : c.toNat < 128) (hsmall : c.toNat < 97 ∨ 122 < c.toNat) :
    toUpper c = c := by
  have hcode : upperCode c.toNat = c.toNat := by
    unfold upperCode
    rw [if_pos h, if_neg]
    simp only [Bool.and_eq_true, decide_eq_true_eq]
    omega
  rw [toUpper, hcode, Char.ofNat_toNat]

/-- In ASCII a letter and its capital have one small letter. -/
theorem toLower_toUpper {c : Char} (h : c.toNat < 128) : toLower (toUpper c) = toLower c := by
  have hall : ∀ n < 128, toLower (toUpper (Char.ofNat n)) = toLower (Char.ofNat n) := by
    decide +kernel
  rw [← Char.ofNat_toNat c]
  exact hall c.toNat h

theorem fold_eq_toLower {c : Char} (h : c.toNat < 128) : fold c = toLower c := by
  unfold fold
  rw [if_neg, toLower_toUpper h]
  simp only [Bool.or_eq_true, decide_eq_true_eq]
  omega

/-- Texts in ASCII are the same up to case exactly if their small letters are. -/
theorem equalFold_ascii {s t : String} (hs : ∀ c ∈ s.toList, c.toNat < 128)
    (ht : ∀ c ∈ t.toList, c.toNat < 128) :
    equalFold s t = true ↔ s.toList.map toLower = t.toList.map toLower := by
  unfold equalFold
  rw [decide_eq_true_eq, List.map_congr_left fun c hc => fold_eq_toLower (hs c hc),
    List.map_congr_left fun c hc => fold_eq_toLower (ht c hc)]

end LetterCase
