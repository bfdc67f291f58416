/-!
# Built-in scene graph nodes

The node types that the platform itself provides.
-/

namespace ScopeCheck

/-- The names of the built-in node types. -/
def builtinNodes : List String :=
  ["Animation", "ArrayGrid", "Audio", "BusySpinner", "Button", "ButtonGroup", "ChannelStore",
   "CheckList", "ColorFieldInterpolator", "ComponentLibrary", "ContentNode", "Dialog",
   "DynamicCustomKeyboard", "DynamicKeyboard", "DynamicMiniKeyboard", "DynamicPinPad",
   "FloatFieldInterpolator", "Font", "GridPanel", "Group", "InfoPane", "Keyboard",
   "KeyboardDialog", "Label", "LabelList", "LayoutGroup", "ListPanel", "MarkupGrid", "MarkupList",
   "MaskGroup", "MiniKeyboard", "MultiStyleLabel", "Node", "Overhang", "OverhangPanelSetScene",
   "Panel", "PanelSet", "ParallelAnimation", "PinDialog", "PinPad", "Poster", "PosterGrid",
   "ProgressDialog", "RadioButtonList", "Rectangle", "RowList", "Scene", "ScrollableText",
   "ScrollingLabel", "SequentialAnimation", "SimpleLabel", "SoundEffect", "StandardDialog",
   "StandardKeyboardDialog", "StandardMessageDialog", "StandardPinPadDialog",
   "StandardProgressDialog", "StdDlgActionCardItem", "StdDlgBulletTextItem", "StdDlgButton",
   "StdDlgButtonArea", "StdDlgContentArea", "StdDlgDeterminateProgressItem", "StdDlgGraphicItem",
   "StdDlgKeyboardItem", "StdDlgMultiStyleTextItem", "StdDlgProgressItem", "StdDlgSideCardArea",
   "StdDlgTextItem", "StdDlgTitleArea", "TargetGroup", "TargetList", "TargetSet", "Task",
   "TextEditBox", "Timer", "TrickPlayBar", "Vector2DFieldInterpolator", "Video",
   "VoiceTextEditBox", "ZoomRowList"]

end ScopeCheck
