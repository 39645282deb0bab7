import Workbench.Text.Ranges
set_option autoImplicit false

/-!
The property Cased beyond ASCII, which decides how a sigma is lowered.
-/
namespace Workbench.Text

/-- Code points from U+0080 with the property Cased. -/
def casedRanges : Ranges := [
  (0x00AA,0x00AA), (0x00B5,0x00B5), (0x00BA,0x00BA), (0x00C0,0x00D6), (0x00D8,0x00F6),
  (0x00F8,0x01BA), (0x01BC,0x01BF), (0x01C4,0x0293), (0x0296,0x02B8), (0x02C0,0x02C1),
  (0x02E0,0x02E4), (0x0345,0x0345), (0x0370,0x0373), (0x0376,0x0377), (0x037A,0x037D),
  (0x037F,0x037F), (0x0386,0x0386), (0x0388,0x038A), (0x038C,0x038C), (0x038E,0x03A1),
  (0x03A3,0x03F5), (0x03F7,0x0481), (0x048A,0x052F), (0x0531,0x0556), (0x0560,0x0588),
  (0x10A0,0x10C5), (0x10C7,0x10C7), (0x10CD,0x10CD), (0x10D0,0x10FA), (0x10FC,0x10FF),
  (0x13A0,0x13F5), (0x13F8,0x13FD), (0x1C80,0x1C8A), (0x1C90,0x1CBA), (0x1CBD,0x1CBF),
  (0x1D00,0x1DBF), (0x1E00,0x1F15), (0x1F18,0x1F1D), (0x1F20,0x1F45), (0x1F48,0x1F4D),
  (0x1F50,0x1F57), (0x1F59,0x1F59), (0x1F5B,0x1F5B), (0x1F5D,0x1F5D), (0x1F5F,0x1F7D),
  (0x1F80,0x1FB4), (0x1FB6,0x1FBC), (0x1FBE,0x1FBE), (0x1FC2,0x1FC4), (0x1FC6,0x1FCC),
  (0x1FD0,0x1FD3), (0x1FD6,0x1FDB), (0x1FE0,0x1FEC), (0x1FF2,0x1FF4), (0x1FF6,0x1FFC),
  (0x2071,0x2071), (0x207F,0x207F), (0x2090,0x209C), (0x2102,0x2102), (0x2107,0x2107),
  (0x210A,0x2113), (0x2115,0x2115), (0x2119,0x211D), (0x2124,0x2124), (0x2126,0x2126),
  (0x2128,0x2128), (0x212A,0x212D), (0x212F,0x2134), (0x2139,0x2139), (0x213C,0x213F),
  (0x2145,0x2149), (0x214E,0x214E), (0x2160,0x217F), (0x2183,0x2184), (0x24B6,0x24E9),
  (0x2C00,0x2CE4), (0x2CEB,0x2CEE), (0x2CF2,0x2CF3), (0x2D00,0x2D25), (0x2D27,0x2D27),
  (0x2D2D,0x2D2D), (0xA640,0xA66D), (0xA680,0xA69D), (0xA722,0xA787), (0xA78B,0xA78E),
  (0xA790,0xA7DC), (0xA7F1,0xA7F6), (0xA7F8,0xA7FA), (0xAB30,0xAB5A), (0xAB5C,0xAB69),
  (0xAB70,0xABBF), (0xFB00,0xFB06), (0xFB13,0xFB17), (0xFF21,0xFF3A), (0xFF41,0xFF5A),
  (0x10400,0x1044F), (0x104B0,0x104D3), (0x104D8,0x104FB), (0x10570,0x1057A), (0x1057C,0x1058A),
  (0x1058C,0x10592), (0x10594,0x10595), (0x10597,0x105A1), (0x105A3,0x105B1), (0x105B3,0x105B9),
  (0x105BB,0x105BC), (0x10780,0x10780), (0x10783,0x10785), (0x10787,0x107B0), (0x107B2,0x107BA),
  (0x10C80,0x10CB2), (0x10CC0,0x10CF2), (0x10D50,0x10D65), (0x10D70,0x10D85), (0x118A0,0x118DF),
  (0x16E40,0x16E7F), (0x16EA0,0x16EB8), (0x16EBB,0x16ED3), (0x1D400,0x1D454), (0x1D456,0x1D49C),
  (0x1D49E,0x1D49F), (0x1D4A2,0x1D4A2), (0x1D4A5,0x1D4A6), (0x1D4A9,0x1D4AC), (0x1D4AE,0x1D4B9),
  (0x1D4BB,0x1D4BB), (0x1D4BD,0x1D4C3), (0x1D4C5,0x1D505), (0x1D507,0x1D50A), (0x1D50D,0x1D514),
  (0x1D516,0x1D51C), (0x1D51E,0x1D539), (0x1D53B,0x1D53E), (0x1D540,0x1D544), (0x1D546,0x1D546),
  (0x1D54A,0x1D550), (0x1D552,0x1D6A5), (0x1D6A8,0x1D6C0), (0x1D6C2,0x1D6DA), (0x1D6DC,0x1D6FA),
  (0x1D6FC,0x1D714), (0x1D716,0x1D734), (0x1D736,0x1D74E), (0x1D750,0x1D76E), (0x1D770,0x1D788),
  (0x1D78A,0x1D7A8), (0x1D7AA,0x1D7C2), (0x1D7C4,0x1D7CB), (0x1DF00,0x1DF09), (0x1DF0B,0x1DF1E),
  (0x1DF25,0x1DF2A), (0x1E030,0x1E06D), (0x1E900,0x1E943), (0x1F130,0x1F149), (0x1F150,0x1F169),
  (0x1F170,0x1F189)]

end Workbench.Text
